import Decimation.Selection.Buckets
import Decimation.Selection.Error
/-!
# Largest triangle three buckets

LTTB keeps the first point, the last point and one point from each bucket between them
(`offsets`). Buckets are visited left to right. In a bucket it keeps the point that spans the
largest triangle with the point kept just before and the centroid of the next bucket; in the
last bucket the final point stands in for the centroid.

The triangle's size is measured as `|x * dy + y * dx + c|` with `dy = prevY - avgY`,
`dx = avgX - prevX` and `c = prevX * avgY - avgX * prevY`, evaluated in binary64 in exactly
that order (twice the area, up to rounding). A point wins only with a strictly larger measure
than every point before it, so a NaN measure never wins, ties keep the earliest point, and a
bucket of NaN measures yields its first point.

`lttb` checks, in order: equal lengths, at least two points, at least three output points, no
more output points than points; then that the boundaries rise strictly and end by the last
index.
-/

namespace Decimation

/-- A point of a series. -/
structure Point where
  x : Float
  y : Float

/-- Negative infinity, the measure every real measure exceeds. -/
def negInfinity : Float := Float.ofBits 0xFFF0000000000000

/-- The mean of the points of a bucket, each coordinate summed from left to right starting at
zero and divided by the count. -/
def centroid (pts : List Point) : Point :=
  let sum := pts.foldl (fun (s : Point) p => ⟨s.x + p.x, s.y + p.y⟩) ⟨0, 0⟩
  let count := Float.ofNat pts.length
  ⟨sum.x / count, sum.y / count⟩

/-- The measure of the triangle that point `p` spans with `prev` and `avg`. -/
def triangleMeasure (prev avg p : Point) : Float :=
  let dy := prev.y - avg.y
  let dx := avg.x - prev.x
  let c := prev.x * avg.y - avg.x * prev.y
  (p.x * dy + p.y * dx + c).abs

/-- One step of the scan for the largest measure: the state holds the position of the best
point so far, its measure, and the position of the next point. -/
def argmaxStep (prev avg : Point) (st : Nat × Float × Nat) (p : Point) : Nat × Float × Nat :=
  let m := triangleMeasure prev avg p
  if m > st.2.1 then (st.2.2, m, st.2.2 + 1) else (st.1, st.2.1, st.2.2 + 1)

/-- The position in `pts` of the first point whose measure is larger than that of every point
before it and not exceeded after it; `0` when every measure is NaN or `pts` is empty. -/
def argmaxArea (prev avg : Point) (pts : List Point) : Nat :=
  (pts.foldl (argmaxStep prev avg) (0, negInfinity, 0)).1

namespace Series

/-- The point at index `i` of the series `xs`, `ys`. -/
def pointAt (xs ys : Array Float) (i : Nat) : Point := ⟨xs.getD i 0, ys.getD i 0⟩

/-- The points with indices in `[lo, hi)`. -/
def bucket (xs ys : Array Float) (lo hi : Nat) : List Point :=
  (List.range' lo (hi - lo)).map (pointAt xs ys)

end Series

/-- The first pair of neighbouring boundaries that does not rise: the bucket number and its
bounds. -/
def firstEmptyBucket? : Nat → List Int → Option (Nat × Int × Int)
  | i, lo :: hi :: rest => if hi ≤ lo then some (i, lo, hi) else firstEmptyBucket? (i + 1) (hi :: rest)
  | _, _ => none

/-- The interior picks, one per bucket: `bounds` are the remaining boundaries and `prev` the
index kept last. A bucket `[lo, mid)` with a bucket `[mid, hi)` after it is judged against
that bucket's centroid; the last bucket `[lo, hi)` against the final point `last`. -/
def pickBuckets (xs ys : Array Float) (last : Point) (prev : Nat) : List Nat → List Nat
  | lo :: mid :: hi :: rest =>
    let avg := centroid (Series.bucket xs ys mid hi)
    let a := lo + argmaxArea (Series.pointAt xs ys prev) avg (Series.bucket xs ys lo mid)
    a :: pickBuckets xs ys last a (mid :: hi :: rest)
  | [lo, hi] => [lo + argmaxArea (Series.pointAt xs ys prev) last (Series.bucket xs ys lo hi)]
  | _ => []

/-- The checked bucket boundaries of `n` points and `nOut` output points. -/
def checkedOffsets (n : Nat) (nOut : Int) : Except SelectError (List Nat) := do
  let off := (offsets n nOut).getD []
  if let some (i, lo, hi) := firstEmptyBucket? 0 off then
    throw (.emptyBucket i lo hi)
  let last := off.getLastD 0
  if last > (n : Int) - 1 then throw (.lastBucketPastEnd last (n - 1))
  return off.map Int.toNat

/-- The indices LTTB keeps of the series `xs`, `ys`, increasing: `0`, one index per bucket,
and `n - 1`. -/
def lttb (xs ys : Array Float) (nOut : Int) : Except SelectError (List Nat) := do
  let n := xs.size
  if n ≠ ys.size then throw (.lengthMismatch n ys.size)
  if n < 2 then throw (.tooFewPoints n)
  if nOut < 3 then throw (.tooFewOutputs nOut)
  if nOut > n then throw (.moreOutputsThanPoints nOut n)
  let off ← checkedOffsets n nOut
  let last := Series.pointAt xs ys (n - 1)
  return 0 :: pickBuckets xs ys last 0 off ++ [n - 1]

end Decimation
