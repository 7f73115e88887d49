import Decimation.Text.Quote
/-!
# Reading floats from text

A float is read from the whole of a text, in one of these forms, letters in either case:

* `inf` or `infinity` with an optional sign, and `nan` without one;
* an optional sign, decimal digits with at most one point and at least one digit, and an
  optional exponent `e` with an optional sign and at least one digit;
* an optional sign, `0x`, hexadecimal digits with at most one point and at least one digit,
  and a binary exponent `p`, which is required.

An underscore may stand between two digits, or between `0x` and a digit. The value is the
exact value of the text rounded to the nearest float, a tie going to the even one; a value
too large for a float is refused as out of range, and one too small becomes zero.
-/

namespace Decimation.Decimal

/-- Why a text is not read as a float. -/
inductive ReadError where
  /-- the text is not in any of the forms -/
  | malformed
  /-- the value is too large for a float -/
  | range
  deriving DecidableEq, Repr

/-- The failure of the named reader to read the bytes `text`, as reported. -/
def ReadError.reportBytes (e : ReadError) (reader : String) (text : List UInt8) : String :=
  "strconv." ++ reader ++ ": parsing " ++ Text.quoteBytes text ++ ": " ++
    (match e with
      | .malformed => "invalid syntax"
      | .range => "value out of range")

/-- The failure of the named reader to read `text`, as reported. -/
def ReadError.report (e : ReadError) (reader text : String) : String :=
  e.reportBytes reader text.toUTF8.toList

/-- The failure to read `text` as a float, as reported. -/
def ReadError.message (e : ReadError) (text : String) : String := e.report "ParseFloat" text

/-- An ASCII letter in lower case; other characters stay. -/
def lowerChar (c : Char) : Char := if 'A' ≤ c ∧ c ≤ 'Z' then Char.ofNat (c.toNat + 32) else c

/-- The value of a digit in the base, if it is one. -/
def digitValue (hex : Bool) (c : Char) : Option Nat :=
  if '0' ≤ c ∧ c ≤ '9' then some (c.toNat - 48)
  else if hex = true ∧ 'a' ≤ lowerChar c ∧ lowerChar c ≤ 'f' then some ((lowerChar c).toNat - 87)
  else none

/-- The text spells `word` (given in lower case), ignoring case. -/
def spells (cs : List Char) (word : String) : Bool := cs.map lowerChar == word.toList

/-- Positive infinity. -/
def infinity : Float := Float.ofBits 0x7FF0000000000000

/-- The infinities and NaN. -/
def special : List Char → Option Float
  | '+' :: r => if spells r "inf" || spells r "infinity" then some infinity else none
  | '-' :: r => if spells r "inf" || spells r "infinity" then some (-infinity) else none
  | r =>
    if spells r "inf" || spells r "infinity" then some infinity
    else if spells r "nan" then some (Float.ofBits 0x7FF8000000000001)
    else none

/-- The digits of a mantissa as read: their value as a whole number, how many follow the
point, and whether any digit or underscore was seen. -/
structure Digits where
  value : Nat
  fraction : Nat
  sawDot : Bool
  sawDigit : Bool
  underscores : Bool

/-- Reads mantissa digits, underscores and one point; returns them and the rest. -/
def readDigits (hex : Bool) : List Char → Digits → Digits × List Char
  | [], d => (d, [])
  | c :: rest, d =>
    if c = '_' then readDigits hex rest { d with underscores := true }
    else if c = '.' then
      if d.sawDot then (d, c :: rest) else readDigits hex rest { d with sawDot := true }
    else match digitValue hex c with
      | some v =>
        let base := if hex then 16 else 10
        let fraction := if d.sawDot then d.fraction + 1 else d.fraction
        readDigits hex rest ⟨d.value * base + v, fraction, d.sawDot, true, d.underscores⟩
      | none => (d, c :: rest)

/-- Reads exponent digits and underscores; the value stops growing once it reaches 10000. -/
def readExponent : List Char → Nat → Bool → Nat × Bool × List Char
  | [], e, u => (e, u, [])
  | c :: rest, e, u =>
    if c = '_' then readExponent rest e true
    else if '0' ≤ c ∧ c ≤ '9' then
      readExponent rest (if e < 10000 then e * 10 + (c.toNat - 48) else e) u
    else (e, u, c :: rest)

/-- Underscores stand only between digits, or between a base prefix and a digit. -/
def underscoresPlaced (cs : List Char) : Bool :=
  let cs := match cs with
    | '+' :: r | '-' :: r => r
    | r => r
  let (saw, cs, hex) := match cs with
    | '0' :: b :: r =>
      let l := lowerChar b
      if l = 'b' ∨ l = 'o' ∨ l = 'x' then ('0', r, l == 'x') else ('^', '0' :: b :: r, false)
    | r => ('^', r, false)
  let step (saw : Option Char) (c : Char) : Option Char :=
    match saw with
    | none => none
    | some s =>
      if ('0' ≤ c ∧ c ≤ '9') ∨ (hex = true ∧ 'a' ≤ lowerChar c ∧ lowerChar c ≤ 'f') then some '0'
      else if c = '_' then (if s = '0' then some '_' else none)
      else if s = '_' then none
      else some '!'
  match cs.foldl step (some saw) with
  | some s => s ≠ '_'
  | none => false

/-- The float nearest to `m * 10^k`, or `none` when that is beyond the largest float. -/
def nearestDecimal (m : Nat) (k : Int) : Option Float :=
  if m = 0 then some 0
  else
    let size := (toString m).length
    if (size : Int) + k > 310 then none
    else if (size : Int) + k < -330 then some 0
    else
      let f := if 0 ≤ k then Float.ofScientific m false k.toNat else Float.ofScientific m true (-k).toNat
      if f.isInf then none else some f

/-- The float nearest to `m * 2^k`, or `none` when that is beyond the largest float. -/
def nearestBinary (m : Nat) (k : Int) : Option Float :=
  if m = 0 then some 0
  else
    let size := m.log2 + 1
    if (size : Int) + k > 1025 then none
    else if (size : Int) + k < -1080 then some 0
    else
      let f :=
        if 0 ≤ k then Float.ofScientific (m * Nat.pow 2 k.toNat) false 0
        else Float.ofScientific (m * Nat.pow 5 (-k).toNat) true (-k).toNat
      if f.isInf then none else some f

/-- The sign, the value of a finite number in the decimal or hexadecimal form, and the
characters left over; a syntax error when the form is broken. -/
def readNumber (cs : List Char) : Except ReadError (Bool × Option Float × List Char) := do
  let (neg, body) := match cs with
    | '+' :: r => (false, r)
    | '-' :: r => (true, r)
    | r => (false, r)
  let (hex, body) := match body with
    | '0' :: x :: c :: r => if lowerChar x = 'x' then (true, c :: r) else (false, body)
    | _ => (false, body)
  let (d, rest) := readDigits hex body ⟨0, 0, false, false, false⟩
  if !d.sawDigit then throw .malformed
  let expChar := if hex then 'p' else 'e'
  let (e, u, rest) ← match rest with
    | c :: r =>
      if lowerChar c = expChar then
        let (neg, r) := match r with
          | '+' :: r => (false, r)
          | '-' :: r => (true, r)
          | r => (false, r)
        match r with
        | c :: _ =>
          if '0' ≤ c ∧ c ≤ '9' then
            let (e, u, r) := readExponent r 0 false
            pure ((if neg then -(e : Int) else e), u, r)
          else throw .malformed
        | [] => throw .malformed
      else if hex then throw .malformed
      else pure (0, false, rest)
    | [] => if hex then throw .malformed else pure (0, false, [])
  let consumed := cs.take (cs.length - rest.length)
  if (d.underscores || u) && !underscoresPlaced consumed then throw .malformed
  let value :=
    if hex then nearestBinary d.value (e - 4 * (d.fraction : Int))
    else nearestDecimal d.value (e - (d.fraction : Int))
  return (neg, value, rest)

/-- The float that the whole text stands for; see the module header. -/
def readFloat (text : String) : Except ReadError Float :=
  let cs := text.toList
  match special cs with
  | some f => .ok f
  | none => do
    let (neg, value, rest) ← readNumber cs
    if !rest.isEmpty then throw .malformed
    match value with
    | some f => return (if neg then -f else f)
    | none => throw .range

/-- The truth value a text stands for: `1`, `t`, `T`, `TRUE`, `true`, `True`, and the same
spellings of false. -/
def readBool (text : String) : Option Bool :=
  match text with
  | "1" | "t" | "T" | "TRUE" | "true" | "True" => some true
  | "0" | "f" | "F" | "FALSE" | "false" | "False" => some false
  | _ => none

end Decimation.Decimal
