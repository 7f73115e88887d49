import Decimation.Error
import Decimation.Decimal.Layout
/-!
# Ranges of x values

An x-range `[start, end)` selects the x values `v` with `start ≤ v < end`. An infinite bound
is open: a start of `-Inf` admits every value below, an end of `+Inf` every value above, so
`+Inf` itself lies in `[a, +Inf)`. NaN lies in no range. A range is valid when neither bound is
NaN and the start does not exceed the end; it is unbounded when it is `[-Inf, +Inf)`.
-/

namespace Decimation

/-- Positive infinity. -/
def posInfinity : Float := Float.ofBits 0x7FF0000000000000

/-- An interval of x values, closed below and open above. -/
structure XRange where
  start : Float
  stop : Float

/-- Why a range is invalid. -/
inductive RangeError where
  /-- a bound is NaN -/
  | nanBound (r : XRange)
  /-- the start exceeds the end -/
  | startAfterEnd (start stop : Float)

namespace XRange

/-- `[start, +Inf)`. -/
def atLeast (start : Float) : XRange := ⟨start, posInfinity⟩

/-- `[-Inf, stop)`. -/
def below (stop : Float) : XRange := ⟨-posInfinity, stop⟩

/-- `[-Inf, +Inf)`, every value but NaN. -/
def all : XRange := ⟨-posInfinity, posInfinity⟩

/-- The range written as `[start, end)` with both bounds in general notation. -/
def text (r : XRange) : String := "[" ++ floatText r.start ++ ", " ++ floatText r.stop ++ ")"

/-- A bound is negative infinity. -/
def isNegInf (f : Float) : Bool := f.isInf && f < 0

/-- A bound is positive infinity. -/
def isPosInf (f : Float) : Bool := f.isInf && f > 0

/-- Checks that neither bound is NaN and the start does not exceed the end. -/
def validate (r : XRange) : Except RangeError Unit :=
  if r.start.isNaN || r.stop.isNaN then .error (.nanBound r)
  else if r.start > r.stop then .error (.startAfterEnd r.start r.stop)
  else .ok ()

/-- `v` lies in the range. -/
def contains (r : XRange) (v : Float) : Bool :=
  !v.isNaN && (isNegInf r.start || v ≥ r.start) && (isPosInf r.stop || v < r.stop)

/-- The range is `[-Inf, +Inf)`. -/
def unbounded (r : XRange) : Bool := isNegInf r.start && isPosInf r.stop

end XRange

namespace RangeError

/-- What the failure says beyond its class. -/
def detail : RangeError → String
  | nanBound r => "NaN bound in " ++ r.text
  | startAfterEnd s e => "start " ++ floatText s ++ " is after end " ++ floatText e

instance : Failure RangeError where
  message e := ErrorClass.invalidRange.tag e.detail
  classes _ := ErrorClass.invalidRange.lineage

end RangeError

end Decimation
