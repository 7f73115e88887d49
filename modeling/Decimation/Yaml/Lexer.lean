import Decimation.Yaml.Token
/-!
# The lexer's state and its moves

The lexer walks the characters of a stream once. It keeps its place (character index, line
and column), the tokens found but not yet taken, the stack of block indentations, the depth
of flow collections, and for each flow depth the place where a key without `?` may have
started: such a key is known to be one only when its `:` is found, on the same line and at
most 1024 characters further on, and the `key` token is then put back before it. A key
candidate at the indentation of its block mapping is required: when it turns out not to be a
key, the stream is refused.

Line breaks are `\r\n`, `\r`, `\n`, `U+0085`, `U+2028` and `U+2029`. Inside a scalar the first
four read as `\n`, and the last two stay as they are. The character `\x00` marks the end; a
stream that holds one is refused when the reader decodes it (see `Stream.refuses`).

Besides its place, the lexer records how far ahead it has asked for characters
(`demand`), which decides how much of the stream the reader inspects.
-/

namespace Decimation.Yaml

/-- A place in the stream. -/
structure Mark where
  index : Nat
  line : Nat
  column : Nat
  deriving Inhabited

/-- A place where a key without `?` may have started, and the number of its first token. -/
structure KeyCandidate where
  possible : Bool
  required : Bool
  tokenNumber : Nat
  mark : Mark
  deriving Inhabited

/-- The state of the lexer. -/
structure Lexer where
  chars : Array Char
  mark : Mark
  /-- the characters asked for so far -/
  demand : Nat
  /-- line breaks passed since the last character that is not a blank -/
  newlines : Nat
  /-- tokens found and not yet taken, the next one first -/
  queue : List Token
  /-- tokens taken so far -/
  taken : Nat
  /-- the queue is ready for the next token to be taken -/
  available : Bool
  started : Bool
  /-- the end of the stream has been taken -/
  ended : Bool
  indent : Int
  indents : List Int
  flowLevel : Nat
  /-- a key may start at the current place -/
  keyAllowed : Bool
  /-- one key candidate for each flow depth, the block context first -/
  candidates : Array KeyCandidate
  /-- the candidate, by its place in `candidates`, that each token number starts -/
  candidateOf : List (Nat × Nat)

/-- The lexer at the start of a stream. -/
def Lexer.init (chars : Array Char) : Lexer :=
  ⟨chars, ⟨0, 0, 0⟩, 0, 0, [], 0, false, false, false, -1, [], 0, false, #[], []⟩

/-- Lexing that may refuse the stream with a reason. -/
abbrev Lex := StateT Lexer (Except String)

/-- A line break. -/
def isBreak (c : Char) : Bool :=
  c == '\r' || c == '\n' || c == '\u0085' || c == '\u2028' || c == '\u2029'

/-- A space or a tab. -/
def isBlank (c : Char) : Bool := c == ' ' || c == '\t'

/-- A line break or the end. -/
def isBreakZ (c : Char) : Bool := isBreak c || c == '\x00'

/-- A blank, a line break or the end. -/
def isBlankZ (c : Char) : Bool := isBlank c || isBreakZ c

/-- An ASCII letter or digit, `_` or `-`: the characters of names. -/
def isWordChar (c : Char) : Bool :=
  ('0' ≤ c && c ≤ '9') || ('A' ≤ c && c ≤ 'Z') || ('a' ≤ c && c ≤ 'z') || c == '_' || c == '-'

/-- The value of a hexadecimal digit. -/
def hexDigit? (c : Char) : Option Nat :=
  if '0' ≤ c ∧ c ≤ '9' then some (c.toNat - 48)
  else if 'a' ≤ c ∧ c ≤ 'f' then some (c.toNat - 87)
  else if 'A' ≤ c ∧ c ≤ 'F' then some (c.toNat - 55)
  else none

namespace Lexer

/-- The character `k` places ahead; `\x00` past the end. -/
def peek (l : Lexer) (k : Nat) : Char := l.chars.getD (l.mark.index + k) '\x00'

/-- The number the next token found will have. -/
def nextNumber (l : Lexer) : Nat := l.taken + l.queue.length

end Lexer

namespace Lex

/-- The character `k` places ahead. -/
def look (k : Nat) : Lex Char := return (← get).peek k

/-- Asks the reader for `n` characters from the current place. -/
def need (n : Nat) : Lex Unit :=
  modify fun l => { l with demand := max l.demand (l.mark.index + n) }

/-- Moves past one character that is not a line break. -/
def skip : Lex Unit := modify fun l =>
  { l with newlines := if isBlank (l.peek 0) then l.newlines else 0,
           mark := ⟨l.mark.index + 1, l.mark.line, l.mark.column + 1⟩ }

/-- Moves past a line break, `\r\n` counting as one. -/
def skipLine : Lex Unit := modify fun l =>
  if l.peek 0 == '\r' && l.peek 1 == '\n' then
    { l with mark := ⟨l.mark.index + 2, l.mark.line + 1, 0⟩, newlines := l.newlines + 1 }
  else if isBreak (l.peek 0) then
    { l with mark := ⟨l.mark.index + 1, l.mark.line + 1, 0⟩, newlines := l.newlines + 1 }
  else l

/-- Moves past one character, adding it to `s`. -/
def read (s : String) : Lex String := do
  let c ← look 0
  skip
  return s.push c

/-- Moves past a line break, adding it to `s`: `\n` for the first four kinds, the character
itself for `U+2028` and `U+2029`. -/
def readLine (s : String) : Lex String := do
  let c ← look 0
  if c == '\r' || c == '\n' || c == '\u0085' then
    skipLine
    return s.push '\n'
  else if c == '\u2028' || c == '\u2029' then
    skipLine
    return s.push c
  else return s

/-- Moves past the blanks (spaces and tabs) ahead. -/
def skipBlanks : Nat → Lex Unit
  | 0 => pure ()
  | fuel + 1 => do
    need 1
    if isBlank (← look 0) then
      skip
      skipBlanks fuel
    else pure ()

/-- Moves up to the next line break or the end. -/
def skipToBreak : Nat → Lex Unit
  | 0 => pure ()
  | fuel + 1 => do
    need 1
    if isBreakZ (← look 0) then pure ()
    else
      skip
      skipToBreak fuel

/-- The number of characters left, which bounds every loop over them. -/
def room : Lex Nat := do
  let l ← get
  return l.chars.size - l.mark.index + 1

/-- Appends a token to the queue. -/
def push (t : Token) : Lex Unit := modify fun l => { l with queue := l.queue ++ [t] }

/-- Puts a token into the queue before the token numbered `n`, or at its end when that one
has been taken. -/
def insertBefore (n : Nat) (t : Token) : Lex Unit := modify fun l =>
  if n < l.taken then { l with queue := l.queue ++ [t] }
  else
    let i := n - l.taken
    { l with queue := l.queue.take i ++ t :: l.queue.drop i }

/-- In block context, opens a block collection at `column` when it is deeper than the
current indentation: the token `t` goes before the token numbered `number`, or at the end. -/
def rollIndent (column : Int) (number : Option Nat) (t : Token) : Lex Unit := do
  let l ← get
  if l.flowLevel = 0 ∧ l.indent < column then
    set { l with indents := l.indent :: l.indents, indent := column }
    if l.indents.length + 1 > 10000 then throw "exceeded max depth of 10000"
    match number with
    | some n => insertBefore n t
    | none => push t

/-- In block context, closes the block collections deeper than `column`. -/
def unrollIndent (column : Int) : Nat → Lex Unit
  | 0 => pure ()
  | fuel + 1 => do
    let l ← get
    if l.flowLevel = 0 ∧ column < l.indent then
      match l.indents with
      | i :: rest =>
        set { l with indent := i, indents := rest, queue := l.queue ++ [Token.blockEnd] }
        unrollIndent column fuel
      | [] => pure ()
    else pure ()

/-- Closes the block collections deeper than `column`. -/
def unroll (column : Int) : Lex Unit := do
  unrollIndent column ((← get).indents.length + 1)

/-- Whether the key candidate at place `i` of the stack may still be a key: it must be on
the current line and at most 1024 characters back. One that may not is dropped, and the
stream is refused if it was required. -/
def candidateValid (i : Nat) : Lex Bool := do
  let l ← get
  match l.candidates[i]? with
  | none => throw "index out of range"
  | some k =>
    if !k.possible then return false
    if k.mark.line < l.mark.line ∨ k.mark.index + 1024 < l.mark.index then
      if k.required then throw "could not find expected ':'"
      set { l with candidates := l.candidates.set! i { k with possible := false } }
      return false
    return true

/-- Drops the key candidate of the current flow depth; the stream is refused if it was
required. -/
def dropCandidate : Lex Unit := do
  let l ← get
  let i := l.candidates.size - 1
  match l.candidates[i]? with
  | some k =>
    if k.possible then
      if k.required then throw "could not find expected ':'"
      set { l with candidates := l.candidates.set! i { k with possible := false },
                   candidateOf := l.candidateOf.filter (·.1 != k.tokenNumber) }
  | none => pure ()

/-- Records that a key may start at the current place, with the next token, when a key is
allowed here. -/
def saveCandidate : Lex Unit := do
  let l ← get
  if l.keyAllowed then
    let required := l.flowLevel = 0 ∧ l.indent = (l.mark.column : Int)
    let k : KeyCandidate := ⟨true, required, l.nextNumber, l.mark⟩
    dropCandidate
    modify fun l =>
      let i := l.candidates.size - 1
      { l with candidates := l.candidates.set! i k,
               candidateOf := (k.tokenNumber, i) :: l.candidateOf.filter (·.1 != k.tokenNumber) }

/-- Enters a flow collection, with no key candidate at its depth yet. -/
def enterFlow : Lex Unit := do
  modify fun l => { l with candidates := l.candidates.push ⟨false, false, 0, l.mark⟩,
                           flowLevel := l.flowLevel + 1 }
  if (← get).flowLevel > 10000 then throw "exceeded max depth of 10000"

/-- Leaves a flow collection, forgetting the key candidate of its depth. -/
def leaveFlow : Lex Unit := modify fun l =>
  if l.flowLevel = 0 then l
  else
    let last := l.candidates.back!
    { l with flowLevel := l.flowLevel - 1, candidates := l.candidates.pop,
             candidateOf := l.candidateOf.filter (·.1 != last.tokenNumber) }

end Lex

end Decimation.Yaml
