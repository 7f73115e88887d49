import Decimation.Yaml.Token
import Decimation.Decimal.Integer
import Decimation.Text.Base64
import Decimation.Yaml.Timestamp
/-!
# What a scalar stands for

A plain scalar is resolved by its look. The texts `true`, `false`, `null`, `~`, the empty text,
`.nan` and `.inf` with an optional sign, each in lower, capitalized or upper case, stand for
what they say. A text that starts with a digit or a sign is, after its underscores are dropped,
tried in turn as a signed 64-bit integer, an unsigned one, a decimal float, and a binary or
octal integer with a `0b` or `0o` prefix; an integer may carry a prefix `0b`, `0o`, `0x`, or
`0` for octal. Before all these, a text that starts with a digit may be a timestamp
(`Yaml.isTimestamp`), which keeps its text. A text that starts with a point may be a float.
Anything else is a string.

A scalar tagged `!!str` is a string, and one tagged `!!binary` holds the bytes its base64
text stands for. Another tag of the core schema must agree with what the text resolves to,
except that an integer may be tagged `!!float` and then is one; other tags keep the text.
-/

namespace Decimation.Yaml

/-- What a scalar stands for. -/
inductive Value where
  | null
  | bool (b : Bool)
  /-- an integer of the signed 64-bit range -/
  | int (i : Int)
  /-- an integer beyond the signed 64-bit range but within the unsigned one -/
  | uint (n : Nat)
  | float (f : Float)
  /-- a string, or the text of a scalar whose tag is not resolved -/
  | text (s : String)
  /-- a string of bytes that need not be UTF-8, as a `!!binary` scalar stands for -/
  | bytes (bs : List UInt8)

/-- The prefix of the core schema's tags. -/
def corePrefix : String := "tag:yaml.org,2002:"

/-- The short form of a tag: the core schema's prefix becomes `!!`. -/
def shortTag (t : String) : String :=
  if t.startsWith corePrefix then "!!" ++ String.ofList (t.toList.drop corePrefix.length) else t

/-- The text has the look of a decimal float: an optional sign, digits with an optional
fraction or a fraction alone, and an optional exponent. -/
def decimalForm (cs : List Char) : Bool :=
  let isDigit (c : Char) : Bool := '0' ≤ c && c ≤ '9'
  let cs := match cs with
    | '+' :: r | '-' :: r => r
    | r => r
  let (mantissa, rest) := match cs with
    | '.' :: r =>
      let ds := r.takeWhile isDigit
      (!ds.isEmpty, r.drop ds.length)
    | r =>
      let ds := r.takeWhile isDigit
      if ds.isEmpty then (false, r)
      else match r.drop ds.length with
        | '.' :: r' => (true, r'.dropWhile isDigit)
        | r' => (true, r')
  mantissa &&
    match rest with
    | [] => true
    | e :: r =>
      let r := match r with
        | '+' :: x | '-' :: x => x
        | x => x
      (e == 'e' || e == 'E') && !r.isEmpty && r.all isDigit

/-- The texts that stand for fixed values. -/
def fixedValue (text : String) : Option (String × Value) :=
  match text with
  | "true" | "True" | "TRUE" => some ("!!bool", .bool true)
  | "false" | "False" | "FALSE" => some ("!!bool", .bool false)
  | "" | "~" | "null" | "Null" | "NULL" => some ("!!null", .null)
  | ".nan" | ".NaN" | ".NAN" => some ("!!float", .float (Float.ofBits 0x7FF8000000000001))
  | ".inf" | ".Inf" | ".INF" | "+.inf" | "+.Inf" | "+.INF" => some ("!!float", .float Decimal.infinity)
  | "-.inf" | "-.Inf" | "-.INF" => some ("!!float", .float (-Decimal.infinity))
  | _ => none

/-- How the first character hints at what a text may be: `S` a sign, `D` a digit, `M` a
letter that starts a fixed value, `.` a point; none when it can only be a string. -/
def hint (text : String) : Option Char :=
  match text.toList with
  | [] => some 'N'
  | c :: _ =>
    if c = '+' ∨ c = '-' then some 'S'
    else if '0' ≤ c ∧ c ≤ '9' then some 'D'
    else if "yYnNtTfFoO~".toList.contains c then some 'M'
    else if c = '.' then some '.'
    else none

/-- An integer read in a base with a prefix already dropped: signed when it fits, unsigned
otherwise. -/
def prefixedInt (base : Nat) (cs : List Char) : Option (String × Value) :=
  match Decimal.readSigned base (String.ofList cs) with
  | .ok i => some ("!!int", .int i)
  | .error _ => (Decimal.readUnsigned base (String.ofList cs)).toOption.map fun n => ("!!int", .uint n)

/-- A text that starts with a digit or a sign: see the module header. -/
def numberValue (text : String) : Option (String × Value) :=
  let plain := text.toList.filter (· ≠ '_')
  match Decimal.readSigned 0 (String.ofList plain) with
  | .ok i => some ("!!int", .int i)
  | .error _ =>
  match Decimal.readUnsigned 0 (String.ofList plain) with
  | .ok n => some ("!!int", .uint n)
  | .error _ =>
  let asFloat : Option (String × Value) :=
    if decimalForm plain then
      match Decimal.readFloat (String.ofList plain) with
      | .ok f => some ("!!float", .float f)
      | .error _ => none
    else none
  match asFloat with
  | some r => some r
  | none =>
    match plain with
    | '0' :: 'b' :: r => prefixedInt 2 r
    | '-' :: '0' :: 'b' :: r =>
      (Decimal.readSigned 2 (String.ofList ('-' :: r))).toOption.map fun i => ("!!int", .int i)
    | '0' :: 'o' :: r => prefixedInt 8 r
    | '-' :: '0' :: 'o' :: r =>
      (Decimal.readSigned 8 (String.ofList ('-' :: r))).toOption.map fun i => ("!!int", .int i)
    | _ => none

/-- The tag and value a plain text resolves to when read for `tag` (in short form, empty
when none); `!!str` keeps the text. -/
def resolvePlain (tag text : String) : String × Value :=
  if tag = "!!str" then ("!!str", .text text)
  else match hint text with
    | none => ("!!str", .text text)
    | some h =>
      match fixedValue text with
      | some r => r
      | none =>
        let found : Option (String × Value) :=
          if h = '.' then
            match Decimal.readFloat text with
            | .ok f => some ("!!float", .float f)
            | .error _ => none
          else if h = 'D' ∨ h = 'S' then
            if (tag = "" ∨ tag = "!!timestamp") ∧ isTimestamp text then
              some ("!!timestamp", .text text)
            else numberValue text
          else none
        found.getD ("!!str", .text text)

/-- The tags under which a text is resolved; others keep the text as it is. -/
def resolvable (tag : String) : Bool :=
  ["", "!!str", "!!bool", "!!int", "!!float", "!!timestamp", "!!null"].contains tag

/-- The tag and value of a plain text under a tag (in short form): the tag must agree with
what the text resolves to, except that an integer may be read as a float. -/
def resolve (tag text : String) : Except String (String × Value) :=
  if !resolvable tag then .ok (tag, .text text)
  else
    let (rtag, v) := resolvePlain tag text
    if tag = "" ∨ tag = rtag ∨ tag = "!!str" then .ok (rtag, v)
    else match tag, v with
      | "!!float", .int i => .ok ("!!float", .float (Float.ofInt i))
      | _, _ => .error ("cannot decode " ++ rtag ++ " " ++ text ++ " as a " ++ tag)

/-- The tag a plain text written without one resolves to. -/
def plainTag (text : String) : String := (resolvePlain "" text).1

/-- What a scalar node stands for, by its tag: under `!!str` its text, under `!!binary` the
bytes its base64 text stands for, and under other tags what the text resolves to. -/
def scalarValue (tag text : String) : Except String (String × Value) :=
  if tag = "!!str" then .ok ("!!str", .text text)
  else do
    let (rtag, v) ← resolve tag text
    if rtag = "!!binary" then
      match Text.base64Decode text with
      | some bytes => return ("!!binary", .bytes bytes)
      | none => throw "!!binary value contains invalid base64 data"
    else return (rtag, v)

end Decimation.Yaml
