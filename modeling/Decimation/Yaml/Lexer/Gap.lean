import Decimation.Yaml.Lexer
/-!
# What lies between tokens

Between tokens stand spaces, line breaks and comments. A tab counts as a blank in flow
context and wherever no key may start; at the start of a line in block context it is not
skipped, and then it starts no token. Passing a line break in block context allows a key
again.

A comment runs from `#` to the end of its line. Comment lines that follow one another, with
only blanks and line breaks between them, are passed together, tabs at their line starts
included; the look for the next comment line goes at most 511 characters ahead and stops at
a flow closing bracket or at a line break written with more than one byte (`U+0085`,
`U+2028`, `U+2029`). A comment after a token on its own line is passed with the token.
-/

namespace Decimation.Yaml

namespace Lex

/-- The lexer looks at most this many characters ahead for a comment. -/
def commentLookahead : Nat := 512

/-- Moves, over blanks and line breaks, to the character at index `target`. -/
def advanceTo (target : Nat) : Nat → Lex Unit
  | 0 => pure ()
  | fuel + 1 => do
    if target ≤ (← get).mark.index then return
    need 1
    if isBreak (← look 0) then
      need 2
      skipLine
    else skip
    advanceTo target fuel

/-- Moves to the character `k` places ahead, over blanks and line breaks. -/
def advance (k : Nat) : Lex Unit := do
  advanceTo ((← get).mark.index + k) (k + 1)

/-- Looks from `k` places ahead over blanks and plain line breaks for the `#` of a comment:
its distance, or none when something else comes first. -/
def commentAhead : Nat → Nat → Lex (Option Nat)
  | 0, _ => pure none
  | fuel + 1, k => do
    if commentLookahead ≤ k then return none
    need (k + 1)
    let l ← get
    let c := l.peek k
    if isBlank c || c == '\r' || c == '\n' then commentAhead fuel (k + 1)
    else if l.flowLevel > 0 && (c == ']' || c == '}') then return none
    else if c == '\u0085' || c == '\u2028' || c == '\u2029' then
      if k + 1 < commentLookahead then need (k + 2)
      return none
    else if c == '#' then return some k
    else return none

/-- Passes the comment at the current place and the comment lines right after it. -/
def comments : Nat → Lex Unit
  | 0 => pure ()
  | fuel + 1 => do
    skipToBreak (← room)
    match ← commentAhead commentLookahead 1 with
    | some k =>
      advance k
      comments fuel
    | none => pure ()

/-- Looks from `k` places ahead over blanks for the `#` of a comment: its distance, or none
when something else comes first. -/
def blanksAhead : Nat → Nat → Lex (Option Nat)
  | 0, _ => pure none
  | fuel + 1, k => do
    if commentLookahead ≤ k then return none
    need (k + 1)
    let c := (← get).peek k
    if isBlank c then blanksAhead fuel (k + 1)
    else if c == '#' then return some k
    else return none

/-- Passes blanks and a comment that follow a token on its line. -/
def lineComment : Lex Unit := do
  if (← get).newlines > 0 then return
  match ← blanksAhead commentLookahead 0 with
  | some k =>
    advance k
    skipToBreak (← room)
  | none => pure ()

/-- Skips spaces, and tabs where they count as blanks. -/
def skipSpaces : Nat → Lex Unit
  | 0 => pure ()
  | fuel + 1 => do
    let l ← get
    let c := l.peek 0
    if c == ' ' || ((l.flowLevel > 0 || !l.keyAllowed) && c == '\t') then
      skip
      need 1
      skipSpaces fuel
    else pure ()

/-- Moves to the start of the next token over blanks, comments and line breaks. -/
def toNextToken : Nat → Lex Unit
  | 0 => pure ()
  | fuel + 1 => do
    need 1
    let l ← get
    if l.mark.column = 0 && l.peek 0 == '\uFEFF' then skip
    need 1
    skipSpaces (← room)
    if (← look 0) == '#' then comments (← room)
    if isBreak (← look 0) then
      need 2
      skipLine
      if (← get).flowLevel = 0 then modify fun l => { l with keyAllowed := true }
      toNextToken fuel
    else pure ()

end Lex

end Decimation.Yaml
