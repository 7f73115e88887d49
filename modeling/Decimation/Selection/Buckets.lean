import Decimation.Word
/-!
# Bucket boundaries

For `n` points and `nOut` output points, LTTB keeps the first and the last point and splits
the `n - 2` points between them into `nOut - 2` buckets of equal real width
`w = (n - 2) / (nOut - 2)`. Bucket `i` starts at the integer part of `1 + i * w`, computed in
binary64 with one rounding for the quotient, one for the product and one for the sum, and ends
where the next bucket starts. The boundaries are the `nOut - 1` starts `offsets n nOut`; the
last of them is where the last bucket ends.

Because every step rounds, the last boundary can fall short of `n - 1`: for 17 points and 13
output points it is 15, so point 15 is never a candidate.
-/

namespace Decimation

/-- The bucket boundaries for `n` points and `nOut` output points, or nothing when either is
below three. Each boundary is `1 + i * w` for the binary64 width `w`, truncated to a 64-bit
integer. -/
def offsets (n nOut : Int) : Option (List Int) :=
  if nOut < 3 || n < 3 then none
  else
    let width := intToFloat (n - 2) / intToFloat (nOut - 2)
    some ((List.range (nOut - 1).toNat).map fun i =>
      (truncToInt64 (1 + Float.ofNat i * width)).toInt)

end Decimation
