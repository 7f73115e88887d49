import Decimation.Yaml.Lexer.Gap
/-!
# Reading scalars

A scalar is read as words and the gaps between them. A gap of blanks inside a line is kept
as written. A gap that holds line breaks folds: when its first break is a plain line break
(`\r\n`, `\r`, `\n` or `U+0085`) it becomes one space if no empty line follows it, and
otherwise the further breaks alone; when its first break is `U+2028` or `U+2029`, that break
and the further ones are kept. Blanks at the start of a continued line are dropped.

* A plain scalar ends before `: ` (or `:` at the end of a line), before ` #`, at a document
  marker at the start of a line, before a flow indicator in flow context, and in block
  context at a line indented no deeper than its block. A tab in the indentation of a
  continued line is refused.
* A quoted scalar ends at its closing quote; `''` stands for `'` in single quotes, and double
  quotes know the escapes `\0 \a \b \t \n \v \f \r \e \  \" \/ \' \\ \N \_ \L \P`, `\x`, `\u`
  and `\U` with hexadecimal digits, and a backslash before a line break, which joins the
  lines without a space. A document marker or the end inside it is refused.
* A block scalar (`|` literal, `>` folded) may give its indentation as a digit and its
  chomping as `+` (keep the final breaks) or `-` (strip them); by default one final break is
  kept. Its indentation is otherwise that of its first line that is not empty, at least one
  more than its parent block. Folding joins lines by a space only between lines that do not
  start with a blank, and never in a literal scalar.
-/

namespace Decimation.Yaml

/-- A scalar being read: its text, and the gap after its last word. -/
structure Folding where
  text : String
  whitespaces : String
  leadingBreak : String
  trailingBreaks : String
  /-- the gap holds a line break -/
  leadingBlanks : Bool

namespace Folding

/-- Nothing read yet. -/
def empty : Folding := ⟨"", "", "", "", false⟩

/-- Puts the gap into the text before the next word: blanks as written, line breaks
folded. -/
def join (f : Folding) : Folding :=
  if f.leadingBlanks then
    let text :=
      if f.leadingBreak.startsWith "\n" then
        if f.trailingBreaks.isEmpty then f.text.push ' ' else f.text ++ f.trailingBreaks
      else f.text ++ f.leadingBreak ++ f.trailingBreaks
    { f with text := text, leadingBreak := "", trailingBreaks := "", leadingBlanks := false }
  else { f with text := f.text ++ f.whitespaces, whitespaces := "" }

end Folding

namespace Lex

/-- A document marker `---` or `...`, followed by a blank, a break or the end, is ahead. -/
def markerAhead (l : Lexer) : Bool :=
  ((l.peek 0 == '-' && l.peek 1 == '-' && l.peek 2 == '-') ||
    (l.peek 0 == '.' && l.peek 1 == '.' && l.peek 2 == '.')) && isBlankZ (l.peek 3)

/-- Reads the blanks and line breaks of a gap. -/
def gap (f : Folding) : Nat → Lex Folding
  | 0 => pure f
  | fuel + 1 => do
    let c ← look 0
    if isBlank c then
      let f ← if f.leadingBlanks then do skip; pure f
        else do pure { f with whitespaces := ← read f.whitespaces }
      need 1
      gap f fuel
    else if isBreak c then
      need 2
      let f ← if f.leadingBlanks then do pure { f with trailingBreaks := ← readLine f.trailingBreaks }
        else do pure { f with whitespaces := "", leadingBreak := ← readLine "", leadingBlanks := true }
      need 1
      gap f fuel
    else pure f

/-- Reads the characters of a word of a plain scalar. -/
def plainWord (f : Folding) : Nat → Lex Folding
  | 0 => pure f
  | fuel + 1 => do
    let l ← get
    let c := l.peek 0
    if isBlankZ c then return f
    if (c == ':' && isBlankZ (l.peek 1)) ||
        (l.flowLevel > 0 && (c == ',' || c == '?' || c == '[' || c == ']' || c == '{' || c == '}')) then
      return f
    let f := f.join
    let text ← read f.text
    need 2
    plainWord { f with text := text } fuel

/-- Reads the blanks and line breaks after a word of a plain scalar, refusing a tab in the
indentation of a continued line. -/
def plainGap (indent : Int) (f : Folding) : Nat → Lex Folding
  | 0 => pure f
  | fuel + 1 => do
    let l ← get
    let c := l.peek 0
    if isBlank c && f.leadingBlanks && (l.mark.column : Int) < indent && c == '\t' then
      throw "found a tab character that violates indentation"
    if isBlank c || isBreak c then
      let f ← gap f 1
      plainGap indent f fuel
    else pure f

/-- Reads the words of a plain scalar in a block indented `indent - 1`. -/
def plainWords (indent : Int) (f : Folding) : Nat → Lex Folding
  | 0 => pure f
  | fuel + 1 => do
    need 4
    let l ← get
    if l.mark.column = 0 && markerAhead l then return f
    if l.peek 0 == '#' then return f
    let f ← plainWord f (← room)
    let c ← look 0
    if !(isBlank c || isBreak c) then return f
    need 1
    let f ← plainGap indent f (← room)
    let l ← get
    if l.flowLevel = 0 && (l.mark.column : Int) < indent then return f
    plainWords indent f fuel

/-- Reads a plain scalar. A key may follow one that took more than one line. -/
def plainScalar : Lex Token := do
  let f ← plainWords ((← get).indent + 1) Folding.empty (← room)
  if f.leadingBlanks then modify fun l => { l with keyAllowed := true }
  return .scalar f.text .plain

/-- The character of a one-letter escape. -/
def simpleEscape (c : Char) : Option Char :=
  match c with
  | '0' => some '\x00' | 'a' => some '\x07' | 'b' => some '\x08' | 't' => some '\t'
  | '\t' => some '\t' | 'n' => some '\n' | 'v' => some '\x0b' | 'f' => some '\x0c'
  | 'r' => some '\r' | 'e' => some '\x1b' | ' ' => some ' ' | '"' => some '"'
  | '/' => some '/' | '\'' => some '\'' | '\\' => some '\\' | 'N' => some '\u0085'
  | '_' => some '\u00A0' | 'L' => some '\u2028' | 'P' => some '\u2029'
  | _ => none

/-- The value of `n` hexadecimal digits from `k` places ahead. -/
def hexAhead (l : Lexer) (k : Nat) : Nat → Option Nat
  | 0 => some 0
  | n + 1 => do
    let high ← hexAhead l k n
    let d ← hexDigit? (l.peek (k + n))
    return high * 16 + d

/-- Reads an escape after a backslash, adding its character to `s`. -/
def escape (s : String) : Lex String := do
  let l ← get
  let e := l.peek 1
  match simpleEscape e with
  | some c =>
    skip
    skip
    return s.push c
  | none =>
    let width := if e == 'x' then 2 else if e == 'u' then 4 else if e == 'U' then 8 else 0
    if width = 0 then throw "found unknown escape character"
    skip
    skip
    need width
    match hexAhead (← get) 0 width with
    | none => throw "did not find expected hexdecimal number"
    | some v =>
      if (0xD800 ≤ v ∧ v ≤ 0xDFFF) ∨ 0x10FFFF < v then
        throw "found invalid Unicode character escape code"
      for _ in List.range width do skip
      return s.push (Char.ofNat v)

/-- Reads the characters of a quoted scalar up to a blank, a line break, an escaped line
break or the closing quote. -/
def quotedWord (single : Bool) (f : Folding) : Nat → Lex Folding
  | 0 => pure f
  | fuel + 1 => do
    let l ← get
    let c := l.peek 0
    if isBlankZ c then return f
    if single && c == '\'' && l.peek 1 == '\'' then
      skip
      skip
      need 2
      quotedWord single { f with text := f.text.push '\'' } fuel
    else if (single && c == '\'') || (!single && c == '"') then return f
    else if !single && c == '\\' && isBreak (l.peek 1) then
      need 3
      skip
      skipLine
      return { f with leadingBlanks := true }
    else if !single && c == '\\' then
      let text ← escape f.text
      need 2
      quotedWord single { f with text := text } fuel
    else
      let text ← read f.text
      need 2
      quotedWord single { f with text := text } fuel

/-- Reads a quoted scalar after its opening quote, up to its closing quote. -/
def quotedParts (single : Bool) (f : Folding) : Nat → Lex Folding
  | 0 => throw "found unexpected end of stream"
  | fuel + 1 => do
    need 4
    let l ← get
    if l.mark.column = 0 && markerAhead l then throw "found unexpected document indicator"
    if l.peek 0 == '\x00' then throw "found unexpected end of stream"
    let f ← quotedWord single { f with leadingBlanks := false } (← room)
    need 1
    let c ← look 0
    if (single && c == '\'') || (!single && c == '"') then return f
    let f ← gap f (← room)
    quotedParts single f.join fuel

/-- Reads a quoted scalar whose opening quote is at the current place. -/
def quotedScalar (single : Bool) : Lex Token := do
  skip
  let f ← quotedParts single Folding.empty (← room)
  skip
  return .scalar f.text (if single then .singleQuoted else .doubleQuoted)

/-- Passes the indentation spaces of a line of a block scalar: all of them while the
indentation is not known (`indent` zero), else up to column `indent`. -/
def indentSpaces (indent : Nat) : Nat → Lex Unit
  | 0 => pure ()
  | fuel + 1 => do
    let l ← get
    if (indent = 0 ∨ l.mark.column < indent) ∧ l.peek 0 = ' ' then
      skip
      need 1
      indentSpaces indent fuel

/-- Passes the indentation of the lines of a block scalar and its empty lines, adding their
breaks to `breaks`; the greatest column reached is kept in `most`. -/
def blockBreaks (indent : Nat) (breaks : String) (most : Nat) : Nat → Lex (String × Nat)
  | 0 => pure (breaks, most)
  | fuel + 1 => do
    need 1
    indentSpaces indent (← room)
    let l ← get
    let most := max most l.mark.column
    if (indent = 0 ∨ l.mark.column < indent) ∧ l.peek 0 = '\t' then
      throw "found a tab character where an indentation space is expected"
    if !isBreak (l.peek 0) then return (breaks, most)
    need 2
    let breaks ← readLine breaks
    blockBreaks indent breaks most fuel

/-- Reads the rest of a line into `s`. -/
def restOfLine : Nat → String → Lex String
  | 0, s => pure s
  | fuel + 1, s => do
    if isBreakZ (← look 0) then return s
    let s ← read s
    need 1
    restOfLine fuel s

/-- Reads the lines of a block scalar at indentation `indent`. -/
def blockLines (literal : Bool) (indent : Nat) :
    Nat → String → String → String → Bool → Lex (String × String × String)
  | 0, text, lead, trail, _ => pure (text, lead, trail)
  | fuel + 1, text, lead, trail, leadingBlank => do
    let l ← get
    if l.mark.column ≠ indent ∨ l.peek 0 = '\x00' then return (text, lead, trail)
    let trailingBlank := isBlank (l.peek 0)
    let text :=
      if !literal && !leadingBlank && !trailingBlank && lead.startsWith "\n" then
        if trail.isEmpty then text.push ' ' else text
      else text ++ lead
    let text := text ++ trail
    let leadingBlank := isBlank (l.peek 0)
    let text ← restOfLine (← room) text
    need 2
    let lead ← readLine ""
    let (trail, _) ← blockBreaks indent "" 0 (← room)
    blockLines literal indent fuel text lead trail leadingBlank

/-- The chomping sign `+` or `-` at the current place. -/
def chompSign (c : Char) : Option Int :=
  if c == '+' then some 1 else if c == '-' then some (-1) else none

/-- Reads the header of a block scalar after its indicator: the chomping and the
indentation digit, in either order. -/
def blockHeader : Lex (Int × Nat) := do
  need 1
  let c ← look 0
  match chompSign c with
  | some chomp =>
    skip
    need 1
    let d ← look 0
    if '0' ≤ d ∧ d ≤ '9' then
      if d == '0' then throw "found an indentation indicator equal to 0"
      skip
      return (chomp, d.toNat - 48)
    return (chomp, 0)
  | none =>
    if '0' ≤ c ∧ c ≤ '9' then
      if c == '0' then throw "found an indentation indicator equal to 0"
      skip
      need 1
      match chompSign (← look 0) with
      | some chomp =>
        skip
        return (chomp, c.toNat - 48)
      | none => return (0, c.toNat - 48)
    return (0, 0)

/-- Reads a block scalar whose indicator is at the current place. -/
def blockScalar (literal : Bool) : Lex Token := do
  skip
  let (chomp, increment) ← blockHeader
  need 1
  skipBlanks (← room)
  if (← look 0) == '#' then
    lineComment
    skipToBreak (← room)
  if !isBreakZ (← look 0) then throw "did not find expected comment or line break"
  if isBreak (← look 0) then
    need 2
    skipLine
  let parent := (← get).indent
  let given : Nat :=
    if increment = 0 then 0
    else if 0 ≤ parent then (parent + increment).toNat else increment
  let (trail, most) ← blockBreaks given "" 0 (← room)
  let indent : Nat := if given ≠ 0 then given else max (max most (parent + 1).toNat) 1
  need 1
  let (text, lead, trail) ← blockLines literal indent (← room) "" "" trail false
  let text := if chomp ≠ -1 then text ++ lead else text
  let text := if chomp = 1 then text ++ trail else text
  return .scalar text (if literal then .literal else .folded)

end Lex

end Decimation.Yaml
