import Decimation.Yaml.Lexer.Gap
/-!
# Reading anchors, tags and directives

* An anchor `&name` or an alias `*name` is a non-empty run of ASCII letters, digits, `_` and
  `-`, followed by a blank, a line break, the end or one of `? : , ] } % @` and the backquote.
* A tag is `!<uri>` (verbatim), `!!suffix` or `!handle!suffix` (a named handle), `!suffix`,
  or `!` alone. Its characters are those of URIs, `%` escapes of UTF-8 bytes included; a
  verbatim tag may also hold `,`, `[` and `]`. A tag ends at a blank or a line break, or at a
  `,` in flow context.
* A directive starts a line with `%`: `%YAML major.minor` (numbers of at most two digits) or
  `%TAG handle prefix`; any other name is refused. Only a comment may follow on its line.
-/

namespace Decimation.Yaml

namespace Lex

/-- Reads the characters that satisfy `p` into `s`. -/
def readWhile (p : Char → Bool) : Nat → String → Lex String
  | 0, s => pure s
  | fuel + 1, s => do
    if p (← look 0) then
      let s ← read s
      need 1
      readWhile p fuel s
    else return s

/-- Reads an anchor (or an alias, when `isAlias`) whose indicator is at the current place. -/
def anchorToken (isAlias : Bool) : Lex Token := do
  skip
  need 1
  let name ← readWhile isWordChar (← room) ""
  let c ← look 0
  if name.isEmpty || !(isBlankZ c || c == '?' || c == ':' || c == ',' || c == ']' || c == '}' ||
      c == '%' || c == '@' || c == '`') then
    throw "did not find expected alphabetic or numeric character"
  return if isAlias then .alias name else .anchor name

/-- Reads a tag handle: `!`, then letters and digits, then `!` if there is one. In a
directive, a handle must be `!` or end with `!`. -/
def tagHandle (directive : Bool) : Lex String := do
  need 1
  if (← look 0) != '!' then throw "did not find expected '!'"
  let s ← read ""
  need 1
  let s ← readWhile isWordChar (← room) s
  if (← look 0) == '!' then read s
  else if directive && s != "!" then throw "did not find expected '!'"
  else return s

/-- A character may stand in a tag; `verbatim` adds `,`, `[` and `]`. -/
def uriChar (verbatim : Bool) (c : Char) : Bool :=
  isWordChar c || c == ';' || c == '/' || c == '?' || c == ':' || c == '@' || c == '&' ||
    c == '=' || c == '+' || c == '$' || c == '.' || c == '%' || c == '!' || c == '~' ||
    c == '*' || c == '\'' || c == '(' || c == ')' ||
    (verbatim && (c == ',' || c == '[' || c == ']'))

/-- The number of bytes of the UTF-8 sequence a leading byte starts; zero when it starts
none. -/
def sequenceWidth (b : Nat) : Nat :=
  if b < 0x80 then 1
  else if b / 32 = 6 then 2
  else if b / 16 = 14 then 3
  else if b / 8 = 30 then 4
  else 0

/-- Reads `%XX` escapes into `acc` until the UTF-8 sequence they start is complete; `left`
counts the bytes still missing. -/
def uriOctets : Nat → Nat → List UInt8 → Lex (List UInt8)
  | 0, _, acc => pure acc
  | fuel + 1, left, acc => do
    need 3
    let l ← get
    match hexDigit? (l.peek 1), hexDigit? (l.peek 2) with
    | some h, some d =>
      if l.peek 0 != '%' then throw "did not find URI escaped octet"
      let b := h * 16 + d
      let left ← if acc.isEmpty then
          let w := sequenceWidth b
          if w = 0 then throw "found an incorrect leading UTF-8 octet"
          pure w
        else if b / 64 ≠ 2 then throw "found an incorrect trailing UTF-8 octet"
        else pure left
      skip
      skip
      skip
      let acc := acc ++ [b.toUInt8]
      if left ≤ 1 then return acc else uriOctets fuel (left - 1) acc
    | _, _ => throw "did not find URI escaped octet"

/-- Reads the `%XX` escapes of one UTF-8 sequence, adding the character they encode to `s`
(a sequence that is not UTF-8 gives `U+FFFD`). -/
def uriEscapes (s : String) : Lex String := do
  let bytes ← uriOctets 4 0 []
  match String.fromUTF8? (ByteArray.mk bytes.toArray) with
  | some t => return s ++ t
  | none => return s.push '\uFFFD'

/-- Reads the characters of a tag into `s`; `seen` tells whether the tag has any yet. -/
def uriChars (verbatim : Bool) : Nat → String → Bool → Lex (String × Bool)
  | 0, s, seen => pure (s, seen)
  | fuel + 1, s, seen => do
    let c ← look 0
    if !uriChar verbatim c then return (s, seen)
    let s ← if c == '%' then uriEscapes s else read s
    need 1
    uriChars verbatim fuel s true

/-- Reads the characters of a tag after `head` (a handle that turned out to be part of the
tag, whose `!` is dropped); some must be there. -/
def tagUri (verbatim : Bool) (head : String) : Lex String := do
  let start := if head.length > 1 then String.ofList (head.toList.drop 1) else ""
  need 1
  let (s, seen) ← uriChars verbatim (← room) start (!head.isEmpty)
  if !seen then throw "did not find expected tag URI"
  return s

/-- Reads a tag whose `!` is at the current place: its handle and suffix. The tag `!` alone
has an empty handle and the suffix `!`; a verbatim tag has an empty handle. -/
def tagToken : Lex Token := do
  need 2
  let (handle, suffix) ← if (← look 1) == '<' then do
      skip
      skip
      let suffix ← tagUri true ""
      if (← look 0) != '>' then throw "did not find the expected '>'"
      skip
      pure ("", suffix)
    else do
      let handle ← tagHandle false
      if handle.length > 1 && handle.endsWith "!" then
        pure (handle, ← tagUri false "")
      else
        let suffix ← tagUri false handle
        if suffix.isEmpty then pure ("", "!") else pure ("!", suffix)
  need 1
  let c ← look 0
  if !isBlankZ c && ((← get).flowLevel = 0 || c != ',') then
    throw "did not find expected whitespace or line break"
  return .tag handle suffix

/-- Reads a number of a `%YAML` directive: one or two digits. -/
def versionNumber : Lex Nat := do
  need 1
  let digits ← readWhile (fun c => '0' ≤ c && c ≤ '9') 3 ""
  if digits.length > 2 then throw "found extremely long version number"
  if digits.isEmpty then throw "did not find expected version number"
  return digits.foldl (fun n c => n * 10 + (c.toNat - 48)) 0

/-- Reads the value of a `%YAML` directive. -/
def versionValue : Lex Token := do
  need 1
  skipBlanks (← room)
  let major ← versionNumber
  if (← look 0) != '.' then throw "did not find expected digit or '.' character"
  skip
  let minor ← versionNumber
  return .versionDirective major minor

/-- Reads the value of a `%TAG` directive. -/
def tagDirectiveValue : Lex Token := do
  need 1
  skipBlanks (← room)
  let handle ← tagHandle true
  need 1
  if !isBlank (← look 0) then throw "did not find expected whitespace"
  skipBlanks (← room)
  let pfx ← tagUri true ""
  need 1
  if !isBlankZ (← look 0) then throw "did not find expected whitespace or line break"
  return .tagDirective handle pfx

/-- Reads a directive whose `%` is at the current place, with the rest of its line. -/
def directiveToken : Lex Token := do
  skip
  need 1
  let name ← readWhile isWordChar (← room) ""
  if name.isEmpty then throw "could not find expected directive name"
  if !isBlankZ (← look 0) then throw "found unexpected non-alphabetical character"
  let t ← if name == "YAML" then versionValue
    else if name == "TAG" then tagDirectiveValue
    else throw "found unknown directive name"
  need 1
  skipBlanks (← room)
  if (← look 0) == '#' then skipToBreak (← room)
  if !isBreakZ (← look 0) then throw "did not find expected comment or line break"
  if isBreak (← look 0) then
    need 2
    skipLine
  return t

end Lex

end Decimation.Yaml
