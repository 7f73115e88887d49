import Decimation.Decimal.Shortest
/-!
# Machine integers and floats

Sizes, widths and positions are 64-bit machine integers: their sums wrap modulo `2^64` and
their quotients truncate toward zero (`Int64` does both). A float becomes such an integer by
dropping its fraction; a float with no 64-bit integer part (NaN, an infinity, or a magnitude of
`2^63` or more) becomes the least integer `-2^63`, the value x86 processors give for an
unrepresentable conversion. Dividing by zero is a `Trap`, and so is hashing a value that has
no hash, such as a list or a map.
-/

namespace Decimation

/-- The integer part of a finite float, rounded toward zero, from its bits. -/
def truncToInt (f : Float) : Int :=
  let x := Binary.ofBits f.toBits
  let mag : Nat :=
    if 0 ≤ x.exponent then x.mantissa * Nat.pow 2 x.exponent.toNat
    else x.mantissa / Nat.pow 2 (-x.exponent).toNat
  if f.toBits >>> 63 == 1 then -(mag : Int) else mag

/-- A float as a 64-bit integer: its integer part when that fits, and `-2^63` otherwise. -/
def truncToInt64 (f : Float) : Int64 :=
  if f.isNaN || f.isInf then Int64.minValue
  else
    let t := truncToInt f
    if t < -Nat.pow 2 63 || Nat.pow 2 63 ≤ t then Int64.minValue else Int64.ofInt t

/-- A fault that stops the machine in place of a result. -/
inductive Trap where
  /-- an integer division by zero -/
  | divideByZero
  /-- a value of a type that has no hash, named as the runtime names it, used as the key of a
  hashed set -/
  | unhashable (typeName : String)
  deriving DecidableEq, Repr

/-- How the runtime reports a trap. -/
def Trap.message : Trap → String
  | divideByZero => "runtime error: integer divide by zero"
  | unhashable t => "runtime error: hash of unhashable type " ++ t

/-- The quotient of 64-bit machine integers, truncated toward zero (`minValue / -1` wraps to
`minValue`); a zero divisor traps. -/
def quotient64 (a b : Int64) : Except Trap Int64 :=
  if b = 0 then .error .divideByZero else .ok (a / b)

/-- An integer converted to the nearest float, a tie going to the even significand. -/
def intToFloat (i : Int) : Float := Float.ofInt i

end Decimation
