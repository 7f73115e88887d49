import Decimation.Decimal.Read
/-!
# Reading integers from text

An integer is read from the whole of a text in a base from 2 to 36, its digits being `0`–`9`
and then the letters in either case. Base `0` takes the base from a prefix: `0b`, `0o` or `0x`
followed by at least one more character, or a lone leading `0` for octal, and is decimal
otherwise; in that base an underscore may stand between two digits, or between the prefix and
a digit.

An unsigned integer has no sign and must be below `2^64`; a signed one may have a sign and
must lie in `[-2^63, 2^63)`. A value beyond the range is refused as out of range when its
digits are well formed up to the place where it grows too large.
-/

namespace Decimation.Decimal

/-- The value of a character as a digit of a base up to 36. -/
def digit36 (c : Char) : Option Nat :=
  let l := lowerChar c
  if '0' ≤ c ∧ c ≤ '9' then some (c.toNat - 48)
  else if 'a' ≤ l ∧ l ≤ 'z' then some (l.toNat - 87)
  else none

/-- Reads the digits of an unsigned 64-bit integer onto `n`, skipping underscores when
`skip` holds; also tells whether an underscore was seen. -/
def accumulate (base : Nat) (skip : Bool) : List Char → Nat → Bool → Except ReadError (Nat × Bool)
  | [], n, u => .ok (n, u)
  | c :: rest, n, u =>
    if c = '_' ∧ skip = true then accumulate base skip rest n true
    else match digit36 c with
      | none => .error .malformed
      | some d =>
        if base ≤ d then .error .malformed
        else if (Nat.pow 2 64 - 1) / base + 1 ≤ n then .error .range
        else if Nat.pow 2 64 - 1 < n * base + d then .error .range
        else accumulate base skip rest (n * base + d) u

/-- The base a prefix gives and the digits after it, for base `0`. -/
def prefixBase : List Char → Nat × List Char
  | '0' :: b :: c :: rest =>
    let l := lowerChar b
    if l = 'b' then (2, c :: rest)
    else if l = 'o' then (8, c :: rest)
    else if l = 'x' then (16, c :: rest)
    else (8, b :: c :: rest)
  | '0' :: rest => (8, rest)
  | cs => (10, cs)

/-- The unsigned 64-bit integer a text stands for in a base (`0` for a prefix). -/
def readUnsigned (base : Nat) (text : String) : Except ReadError Nat := do
  let cs := text.toList
  if cs.isEmpty then throw .malformed
  let (b, digits) := if base = 0 then prefixBase cs else (base, cs)
  let (n, u) ← accumulate b (base = 0) digits 0 false
  if u && !underscoresPlaced cs then throw .malformed
  return n

/-- The signed 64-bit integer a text stands for in a base (`0` for a prefix), with an optional
sign. -/
def readSigned (base : Nat) (text : String) : Except ReadError Int := do
  let cs := text.toList
  if cs.isEmpty then throw .malformed
  let (neg, body) := match cs with
    | '+' :: r => (false, r)
    | '-' :: r => (true, r)
    | r => (false, r)
  let n ← readUnsigned base (String.ofList body)
  if neg then
    if Nat.pow 2 63 < n then throw .range
    return -(n : Int)
  else
    if Nat.pow 2 63 ≤ n then throw .range
    return (n : Int)

end Decimation.Decimal
