import Decimation.Selection.Error
import Decimation.Word
/-!
# Every s-th point

`nth` keeps the points `0, s, 2s, …` below `n`, where the stride `s` is `n / nOut` rounded up,
computed as `(n + nOut - 1) / nOut` in 64-bit machine arithmetic (the sum wraps, the quotient
truncates toward zero), and raised to one when it falls below one. `nth` asks for a stride only
for a positive `nOut`, so the division never traps there.
-/

namespace Decimation

/-- The stride for `n` points and `nOut` output points: `(n + nOut - 1) / nOut` in 64-bit
machine arithmetic, at least one; no output points is a division by zero. -/
def stride (n nOut : Int64) : Except Trap Int64 := do
  let s ← quotient64 (n + nOut - 1) nOut
  return if s < 1 then 1 else s

/-- The multiples of `s` below `n`, increasing. -/
def multiplesBelow (n s : Nat) : List Nat :=
  List.range' 0 ((n + s - 1) / s) s

/-- The indices `nth` keeps: every `stride`-th index from `0`. -/
def nth (xs ys : Array Float) (nOut : Int) : Except SelectError (List Nat) := do
  let n := xs.size
  if n ≠ ys.size then throw (.lengthMismatch n ys.size)
  if n = 0 then throw .emptySeries
  if nOut ≤ 0 then throw (.nonPositiveOutputs nOut)
  let s := match stride (Int64.ofNat n) (Int64.ofInt nOut) with
    | .ok s => s.toInt.toNat
    | .error _ => 1
  return multiplesBelow n s

end Decimation
