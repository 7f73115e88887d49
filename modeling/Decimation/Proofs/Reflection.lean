import Mathlib
import Decimation.Proofs.FloatSign
import Decimation.Proofs.Lttb
/-!
# Reflecting a series about the x axis

Negating every ordinate of a series leaves the indices LTTB keeps as they are, and a call that
fails fails with the same error (`lttb_map_neg`). The checks read the lengths of the series and
the boundaries of the buckets only. What remains is that every triangle keeps its measure: the
point kept before, the centroid of the next bucket and the point measured are each reflected
(`Point.Mirrors`), and then each term of the sum inside the measure is negated, and so is the sum,
whose absolute value is the measure.

Rounding treats both signs alike, so every value computed along the way is the negation of the
original up to the sign of a zero (`SameModZeroSign`): an exact zero sum is `+0` on both sides,
and a point past the end of the series reads as the origin on both. The absolute value erases the
difference.
-/

namespace Decimation

/-- `p'` is `p` reflected about the x axis: the same abscissa and the negated ordinate, up to the
sign of a zero. -/
structure Point.Mirrors (p' p : Point) : Prop where
  x_eq : p'.x = p.x
  y_neg : SameModZeroSign p'.y (-p.y)

namespace Point.Mirrors

variable {p p' q q' : Point}

theorem origin : Point.Mirrors ⟨0, 0⟩ ⟨0, 0⟩ := ⟨rfl, SameModZeroSign.zero_neg⟩

/-- Adding reflected points coordinatewise gives the reflected sum. -/
theorem add (hp : p'.Mirrors p) (hq : q'.Mirrors q) :
    Point.Mirrors ⟨p'.x + q'.x, p'.y + q'.y⟩ ⟨p.x + q.x, p.y + q.y⟩ :=
  ⟨by rw [hp.x_eq, hq.x_eq], hp.y_neg.add_neg hq.y_neg⟩

end Point.Mirrors

namespace Series

variable (xs ys : Array Float)

/-- A point of the reflected series is the reflected point. -/
theorem pointAt_mirrors (i : Nat) : (pointAt xs (ys.map (- ·)) i).Mirrors (pointAt xs ys i) := by
  refine ⟨rfl, ?_⟩
  simp only [pointAt, Array.getD_eq_getD_getElem?, Array.getElem?_map]
  cases ys[i]? with
  | none => exact SameModZeroSign.zero_neg
  | some y => exact SameModZeroSign.refl _

theorem bucket_mirrors (lo hi : Nat) :
    List.Forall₂ Point.Mirrors (bucket xs (ys.map (- ·)) lo hi) (bucket xs ys lo hi) := by
  unfold bucket
  rw [List.forall₂_map_left_iff, List.forall₂_map_right_iff, List.forall₂_same]
  exact fun i _ => pointAt_mirrors xs ys i

end Series

section Measure

variable {prev' prev avg' avg : Point}

/-- The running sums of reflected points are the reflected running sums. -/
theorem foldl_sum_mirrors {ps' ps : List Point} (h : List.Forall₂ Point.Mirrors ps' ps)
    {s' s : Point} (hs : s'.Mirrors s) :
    (ps'.foldl (fun (s : Point) p => ⟨s.x + p.x, s.y + p.y⟩) s').Mirrors
      (ps.foldl (fun (s : Point) p => ⟨s.x + p.x, s.y + p.y⟩) s) := by
  induction h generalizing s' s with
  | nil => exact hs
  | cons hp _ ih => exact ih (hs.add hp)

/-- The centroid of reflected points is the reflected centroid: the count is the same, and the
sum of the ordinates is negated before it is divided. -/
theorem centroid_mirrors {ps' ps : List Point} (h : List.Forall₂ Point.Mirrors ps' ps) :
    (centroid ps').Mirrors (centroid ps) := by
  have hsum := foldl_sum_mirrors h Point.Mirrors.origin
  unfold centroid
  dsimp only
  rw [h.length_eq]
  exact ⟨by rw [hsum.x_eq], hsum.y_neg.div_neg _⟩

/-- Reflecting the three points of a triangle keeps its measure. -/
theorem triangleMeasure_mirrors {p' p : Point} (hprev : prev'.Mirrors prev)
    (havg : avg'.Mirrors avg) (hp : p'.Mirrors p) :
    triangleMeasure prev' avg' p' = triangleMeasure prev avg p := by
  unfold triangleMeasure
  dsimp only
  rw [hprev.x_eq, havg.x_eq, hp.x_eq]
  -- `dx` is unchanged; `dy`, `c` and with them each term of the sum are negated
  have hdy : SameModZeroSign (prev'.y - avg'.y) (-(prev.y - avg.y)) :=
    hprev.y_neg.sub_neg havg.y_neg
  have hc : SameModZeroSign (prev.x * avg'.y - avg.x * prev'.y)
      (-(prev.x * avg.y - avg.x * prev.y)) :=
    (SameModZeroSign.mul_neg_right prev.x havg.y_neg).sub_neg
      (SameModZeroSign.mul_neg_right avg.x hprev.y_neg)
  have hx : SameModZeroSign (p.x * (prev'.y - avg'.y)) (-(p.x * (prev.y - avg.y))) :=
    SameModZeroSign.mul_neg_right p.x hdy
  have hy : SameModZeroSign (p'.y * (avg.x - prev.x)) (-(p.y * (avg.x - prev.x))) :=
    hp.y_neg.mul_neg_left (avg.x - prev.x)
  exact ((hx.add_neg hy).add_neg hc).abs_eq_of_neg

theorem argmaxStep_mirrors {p' p : Point} (hprev : prev'.Mirrors prev) (havg : avg'.Mirrors avg)
    (hp : p'.Mirrors p) (st : Nat × Float × Nat) :
    argmaxStep prev' avg' st p' = argmaxStep prev avg st p := by
  simp only [argmaxStep, triangleMeasure_mirrors hprev havg hp]

/-- The scan over reflected points passes through the same states. -/
theorem foldl_argmaxStep_mirrors (hprev : prev'.Mirrors prev) (havg : avg'.Mirrors avg)
    {ps' ps : List Point} (h : List.Forall₂ Point.Mirrors ps' ps) (st : Nat × Float × Nat) :
    ps'.foldl (argmaxStep prev' avg') st = ps.foldl (argmaxStep prev avg) st := by
  induction h generalizing st with
  | nil => rw [List.foldl_nil, List.foldl_nil]
  | cons hp _ ih => rw [List.foldl_cons, List.foldl_cons, argmaxStep_mirrors hprev havg hp, ih]

theorem argmaxArea_mirrors (hprev : prev'.Mirrors prev) (havg : avg'.Mirrors avg)
    {ps' ps : List Point} (h : List.Forall₂ Point.Mirrors ps' ps) :
    argmaxArea prev' avg' ps' = argmaxArea prev avg ps := by
  unfold argmaxArea
  rw [foldl_argmaxStep_mirrors hprev havg h]

end Measure

/-- Each bucket keeps the same point in the reflected series, given that the final point is
reflected too. -/
theorem pickBuckets_mirrors (xs ys : Array Float) {last' last : Point} (hlast : last'.Mirrors last)
    (prev : Nat) (B : List Nat) :
    pickBuckets xs (ys.map (- ·)) last' prev B = pickBuckets xs ys last prev B := by
  fun_induction pickBuckets xs ys last prev B with
  | case1 prev lo mid hi rest avg a ih =>
    have hmid := Series.bucket_mirrors xs ys mid hi
    rw [pickBuckets, argmaxArea_mirrors (Series.pointAt_mirrors xs ys prev)
      (centroid_mirrors hmid) (Series.bucket_mirrors xs ys lo mid), ih]
  | case2 prev lo hi =>
    rw [pickBuckets, argmaxArea_mirrors (Series.pointAt_mirrors xs ys prev) hlast
      (Series.bucket_mirrors xs ys lo hi)]
  | case3 B prev hB3 hB2 =>
    -- fewer than two boundaries leave no bucket
    rcases B with _ | ⟨lo, _ | ⟨hi, _ | ⟨mid, rest⟩⟩⟩
    · simp only [pickBuckets]
    · simp only [pickBuckets]
    · exact absurd rfl (hB2 lo hi)
    · exact absurd rfl (hB3 lo hi mid rest)

/-- Reflecting a series about the x axis keeps the indices LTTB selects, and a call that fails
fails alike. -/
theorem lttb_map_neg (xs ys : Array Float) (nOut : Int) :
    lttb xs (ys.map (- ·)) nOut = lttb xs ys nOut := by
  simp only [lttb, Array.size_map,
    pickBuckets_mirrors xs ys (Series.pointAt_mirrors xs ys (xs.size - 1))]

end Decimation
