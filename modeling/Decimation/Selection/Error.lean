import Decimation.Error
import Decimation.Selection.Algorithm
/-!
# Why a selection fails

The causes for which `lttb`, `nth` or a selection by algorithm code refuse a series.
-/

namespace Decimation

/-- Why a point selection fails. -/
inductive SelectError where
  /-- the x and y series have these lengths -/
  | lengthMismatch (xs ys : Nat)
  /-- `lttb` needs at least two points -/
  | tooFewPoints (n : Nat)
  /-- `lttb` needs at least three output points -/
  | tooFewOutputs (nOut : Int)
  /-- more output points than input points were requested -/
  | moreOutputsThanPoints (nOut : Int) (n : Nat)
  /-- bucket `i` has the bounds `[lo, hi)` with `hi ≤ lo` -/
  | emptyBucket (i : Nat) (lo hi : Int)
  /-- the last bucket ends past the last index -/
  | lastBucketPastEnd (last : Int) (lastIndex : Nat)
  /-- `nth` needs at least one point -/
  | emptySeries
  /-- `nth` needs a positive output size -/
  | nonPositiveOutputs (nOut : Int)
  /-- the code names no algorithm -/
  | unknownAlgorithm (code : UInt8)
  deriving DecidableEq, Repr

/-- Lowercase hexadecimal digits of a number, without leading zeros. -/
def hexDigits (n : Nat) : String := String.ofList (Nat.toDigits 16 n)

namespace SelectError

/-- The class a failure is tagged with. -/
def errorClass : SelectError → ErrorClass
  | lengthMismatch .. => .lengthMismatch
  | tooFewPoints .. => .degenerateInput
  | tooFewOutputs .. => .invalidWidth
  | moreOutputsThanPoints .. => .invalidWidth
  | emptyBucket .. => .emptyBucket
  | lastBucketPastEnd .. => .emptyBucket
  | emptySeries => .degenerateInput
  | nonPositiveOutputs .. => .invalidWidth
  | unknownAlgorithm .. => .unknownAlgorithm

/-- What the failure says beyond its class. -/
def detail : SelectError → String
  | lengthMismatch xs ys => s!"len(x)={xs}, len(y)={ys}"
  | tooFewPoints n => s!"lttb needs at least 2 points, got {n}"
  | tooFewOutputs nOut => s!"lttb needs at least 3 output points, got {nOut}"
  | moreOutputsThanPoints nOut n => s!"{nOut} output points requested from {n} input points"
  | emptyBucket i lo hi => s!"bucket {i} is [{lo}, {hi})"
  | lastBucketPastEnd last lastIndex => s!"last bucket ends at {last}, past index {lastIndex}"
  | emptySeries => "empty series"
  | nonPositiveOutputs nOut => s!"nth needs a positive output size, got {nOut}"
  | unknownAlgorithm c => Algorithm.codeName c ++ " (0x" ++ hexDigits c.toNat ++ ")"

instance : Failure SelectError where
  message e := e.errorClass.tag e.detail
  classes e := e.errorClass.lineage

end SelectError

end Decimation
