import Mathlib
import Decimation.Proofs.FloatOrder
import Decimation.Proofs.Lttb
/-!
# The winner of a bucket

`argmaxArea` scans a bucket once, keeping the position and the measure of the best point so far,
and moves to a point only when its measure is strictly larger. Read through the order of floats,
where the values that are not NaN compare as their keys do (`lt_iff_keyOf`), this finds the first
point of largest measure: its measure is not NaN, no measure that is not NaN exceeds it, and every
point before it has a NaN measure or a smaller one. A bucket whose measures are all NaN yields
position `0` (`argmaxArea_first_largest`).

The scan's invariant `ScanInv` speaks of the points scanned so far. One step keeps it
(`ScanInv.step`), hence the whole scan does (`ScanInv.foldl`). Two facts about the measures carry
the step: a NaN measure takes part in no comparison, and a measure that is not NaN exceeds the
starting measure `-∞`, since a measure is an absolute value and never `-∞` itself.
-/

namespace Decimation

open Float.Model

/-! ## Comparisons -/

section Order

variable {a b c : Float}

/-- Only floats that are not NaN compare. -/
theorem isNaN_eq_false_of_lt (h : a < b) : a.isNaN = false ∧ b.isNaN = false := by
  rw [lt_iff_unpack] at h
  change a.toModel.unpack.isNaN = false ∧ b.toModel.unpack.isNaN = false
  cases ha : a.toModel.unpack <;> cases hb : b.toModel.unpack <;>
    simp_all [UnpackedFloat.lt, UnpackedFloat.compare, UnpackedFloat.isNaN]

theorem not_lt_self (a : Float) : ¬ a < a := fun h => by
  obtain ⟨ha, -⟩ := isNaN_eq_false_of_lt h
  exact lt_irrefl _ ((lt_iff_keyOf ha ha).mp h)

/-- What does not exceed `b` lies below everything `b` lies below. -/
theorem lt_of_not_lt_of_lt (ha : a.isNaN = false) (hab : ¬ b < a) (hbc : b < c) : a < c := by
  obtain ⟨hb, hc⟩ := isNaN_eq_false_of_lt hbc
  rw [lt_iff_keyOf hb ha, not_lt] at hab
  rw [lt_iff_keyOf hb hc] at hbc
  exact (lt_iff_keyOf ha hc).mpr (lt_of_le_of_lt hab hbc)

/-- What does not exceed `b` does not exceed anything above `b`. -/
theorem not_lt_of_not_lt_of_lt (ha : a.isNaN = false) (hab : ¬ b < a) (hbc : b < c) :
    ¬ c < a := by
  have hac := lt_of_not_lt_of_lt ha hab hbc
  obtain ⟨-, hc⟩ := isNaN_eq_false_of_lt hbc
  rw [lt_iff_keyOf hc ha, not_lt]
  exact ((lt_iff_keyOf ha hc).mp hac).le

end Order

/-! ## Absolute values -/

theorem negInfinity_unpack : negInfinity.toModel.unpack = .infinity .negative := by
  rfl

/-- A nonzero number is not NaN. -/
theorem Signed.isNaN_eq_false {x : Float} {s : UnpackedFloat.Sign} (h : Signed x s) : x.isNaN = false := by
  change x.toModel.unpack.isNaN = false
  rcases h with ⟨m, e, hm, hx⟩ | hx <;> rw [hx] <;> rfl

/-- An absolute value is a NaN, the zero `+0`, or a positive number. -/
theorem abs_unpack_cases (x : Float) :
    x.abs.toModel.unpack = .notANumber ∨ x.abs.toModel.unpack = .zero .positive ∨
      Signed x.abs .positive := by
  cases hx : x.toModel.unpack with
  | notANumber =>
    left
    show (Float.Model.pack x.toModel.unpack.abs).unpack = _
    rw [hx]
    rfl
  | zero s => exact .inr (.inl (abs_zero_unpack hx))
  | infinity s => exact .inr (.inr (Signed.abs (.inr hx)))
  | finite s m e hm => exact .inr (.inr (Signed.abs (.inl ⟨m, e, hm, hx⟩)))

/-- Every absolute value that is not NaN exceeds `-∞`. -/
theorem negInfinity_lt_abs {x : Float} (h : x.abs.isNaN = false) : negInfinity < x.abs := by
  rw [lt_iff_unpack, negInfinity_unpack]
  rcases abs_unpack_cases x with hn | hz | ⟨m, e, hm, hs⟩ | hs
  · change x.abs.toModel.unpack.isNaN = false at h
    rw [hn] at h
    cases h
  · rw [hz]
    rfl
  · rw [hs]
    rfl
  · rw [hs]
    rfl

/-! ## The scan -/

section Scan

variable (prev avg : Point)

/-- Position `i` of the bucket holds a point whose measure is not NaN and is exceeded by no
measure of the bucket that is not NaN. -/
def LargestAt (pts : List Point) (i : ℕ) : Prop :=
  ∃ h : i < pts.length, (triangleMeasure prev avg pts[i]).isNaN = false ∧
    ∀ q ∈ pts, (triangleMeasure prev avg q).isNaN = false →
      ¬ triangleMeasure prev avg pts[i] < triangleMeasure prev avg q

/-- What the scan state `(best, largest, next)` knows after the points `done`: `next` counts
them; `best` is one of them with the measure `largest`, not NaN, or all of them have NaN measures
and the state is the initial one; no measure that is not NaN exceeds `largest`; and every earlier
point's measure is NaN or below `largest`. -/
structure ScanInv (done : List Point) (st : ℕ × Float × ℕ) : Prop where
  next_eq : st.2.2 = done.length
  best : (∃ h : st.1 < done.length, triangleMeasure prev avg done[st.1] = st.2.1 ∧
      st.2.1.isNaN = false) ∨
    (st.1 = 0 ∧ st.2.1 = negInfinity ∧ ∀ p ∈ done, (triangleMeasure prev avg p).isNaN = true)
  not_exceeded : ∀ p ∈ done, (triangleMeasure prev avg p).isNaN = false →
    ¬ st.2.1 < triangleMeasure prev avg p
  earlier_below : ∀ p ∈ done.take st.1, (triangleMeasure prev avg p).isNaN = false →
    triangleMeasure prev avg p < st.2.1

namespace ScanInv

variable {prev avg}

theorem init : ScanInv prev avg [] (0, negInfinity, 0) where
  next_eq := rfl
  best := .inr ⟨rfl, rfl, fun _ h => by cases h⟩
  not_exceeded _ h := by cases h
  earlier_below _ h := by cases h

theorem best_le {done : List Point} {st : ℕ × Float × ℕ} (h : ScanInv prev avg done st) :
    st.1 ≤ done.length := by
  rcases h.best with ⟨hlt, -⟩ | ⟨h0, -⟩ <;> omega

/-- A point whose measure exceeds the best so far becomes the best. -/
theorem step_exceeds {done : List Point} {st : ℕ × Float × ℕ} {p : Point}
    (h : ScanInv prev avg done st) (hlt : st.2.1 < triangleMeasure prev avg p) :
    ScanInv prev avg (done ++ [p]) (st.2.2, triangleMeasure prev avg p, st.2.2 + 1) := by
  obtain ⟨-, hm⟩ := isNaN_eq_false_of_lt hlt
  have hnext := h.next_eq
  -- every earlier measure that is not NaN is at most the old best, so below the new one
  have hbelow : ∀ q ∈ done, (triangleMeasure prev avg q).isNaN = false →
      triangleMeasure prev avg q < triangleMeasure prev avg p :=
    fun q hq hqn => lt_of_not_lt_of_lt hqn (h.not_exceeded q hq hqn) hlt
  refine ⟨by simp [hnext], .inl ⟨by simp [hnext], by simp [hnext], hm⟩, ?_, ?_⟩
  · intro q hq hqn
    rcases List.mem_append.mp hq with hq | hq
    · exact not_lt_of_not_lt_of_lt hqn (h.not_exceeded q hq hqn) hlt
    · rw [List.mem_singleton.mp hq]
      exact not_lt_self _
  · rw [hnext, List.take_left' rfl]
    exact hbelow

/-- A point whose measure does not exceed the best so far leaves the state as it is. -/
theorem step_keeps {done : List Point} {st : ℕ × Float × ℕ} {p : Point}
    (h : ScanInv prev avg done st) (hle : ¬ st.2.1 < triangleMeasure prev avg p) :
    ScanInv prev avg (done ++ [p]) (st.1, st.2.1, st.2.2 + 1) := by
  have hnext := h.next_eq
  refine ⟨by simp [hnext], ?_, ?_, ?_⟩
  · rcases h.best with ⟨hlt, heq, hn⟩ | ⟨h0, hneg, hnan⟩
    · exact .inl ⟨by simp; omega, by simpa [List.getElem_append_left hlt] using heq, hn⟩
    · -- while every measure is NaN the best is `-∞`, which every other measure exceeds
      refine .inr ⟨h0, hneg, fun q hq => ?_⟩
      rcases List.mem_append.mp hq with hq | hq
      · exact hnan q hq
      · rw [List.mem_singleton.mp hq]
        by_contra hpn
        rw [Bool.not_eq_true] at hpn
        exact hle (hneg ▸ negInfinity_lt_abs hpn)
  · intro q hq hqn
    rcases List.mem_append.mp hq with hq | hq
    · exact h.not_exceeded q hq hqn
    · rw [List.mem_singleton.mp hq]
      exact hle
  · rw [List.take_append_of_le_length h.best_le]
    exact h.earlier_below

theorem step {done : List Point} {st : ℕ × Float × ℕ} {p : Point}
    (h : ScanInv prev avg done st) : ScanInv prev avg (done ++ [p]) (argmaxStep prev avg st p) := by
  simp only [argmaxStep]
  split
  · exact h.step_exceeds ‹_›
  · exact h.step_keeps ‹_›

/-- The scan of the points `rest` after the points `done` keeps the invariant. -/
theorem foldl {done : List Point} {st : ℕ × Float × ℕ} (h : ScanInv prev avg done st)
    (rest : List Point) : ScanInv prev avg (done ++ rest) (rest.foldl (argmaxStep prev avg) st) := by
  induction rest generalizing done st with
  | nil => simpa using h
  | cons p rest ih =>
    rw [List.foldl_cons, ← List.singleton_append, ← List.append_assoc]
    exact ih h.step

end ScanInv

theorem scanInv_argmaxArea (pts : List Point) :
    ScanInv prev avg pts (pts.foldl (argmaxStep prev avg) (0, negInfinity, 0)) := by
  simpa using ScanInv.init.foldl pts

/-- The winner of a non-empty bucket is one of its points. If some measure is not NaN, it is the
first point of largest measure: its measure is not NaN and no measure that is not NaN exceeds it,
and no earlier point is such a point. If every measure is NaN, it is the first point. -/
theorem argmaxArea_first_largest {pts : List Point} (hne : pts ≠ []) :
    argmaxArea prev avg pts < pts.length ∧
      ((∃ q ∈ pts, (triangleMeasure prev avg q).isNaN = false) →
        IsLeast {i | LargestAt prev avg pts i} (argmaxArea prev avg pts)) ∧
      ((∀ q ∈ pts, (triangleMeasure prev avg q).isNaN = true) → argmaxArea prev avg pts = 0) := by
  set st := pts.foldl (argmaxStep prev avg) (0, negInfinity, 0)
  have h : ScanInv prev avg pts st := scanInv_argmaxArea prev avg pts
  have hwin : argmaxArea prev avg pts = st.1 := rfl
  rw [hwin]
  refine ⟨hwin ▸ argmaxArea_lt_length prev avg hne, fun ⟨q, hq, hqn⟩ => ?_, fun hnan => ?_⟩
  · rcases h.best with ⟨hlt, heq, hn⟩ | ⟨-, -, hnan⟩
    · refine ⟨⟨hlt, heq ▸ hn, fun r hr hrn => heq ▸ h.not_exceeded r hr hrn⟩, ?_⟩
      -- an earlier point of largest measure would lie below the winner
      rintro j ⟨hj, hjn, hjmax⟩
      by_contra hji
      have hmem : pts[j] ∈ pts.take st.1 :=
        List.mem_iff_getElem.mpr ⟨j, by simp; omega, by simp⟩
      exact hjmax _ (List.getElem_mem hlt) (heq ▸ hn) (heq ▸ h.earlier_below _ hmem hjn)
    · rw [hnan q hq] at hqn
      cases hqn
  · rcases h.best with ⟨hlt, heq, hn⟩ | ⟨h0, -⟩
    · rw [← heq, hnan _ (List.getElem_mem hlt)] at hn
      cases hn
    · exact h0

/-- Measured against `(0, 0)` and `(1, 0)` a point's measure is `|y|`: a bucket holding a NaN,
the tied measures `2` and `|-2|`, and `1`. -/
theorem argmaxArea_first_largest_nanTie :
    let prev : Point := ⟨0, 0⟩
    let avg : Point := ⟨1, 0⟩
    let pts : List Point := [⟨0, 0 / 0⟩, ⟨0, 2⟩, ⟨0, -2⟩, ⟨0, 1⟩]
    pts ≠ [] ∧ (argmaxArea prev avg pts < pts.length ∧
      ((∃ q ∈ pts, (triangleMeasure prev avg q).isNaN = false) →
        IsLeast {i | LargestAt prev avg pts i} (argmaxArea prev avg pts)) ∧
      ((∀ q ∈ pts, (triangleMeasure prev avg q).isNaN = true) → argmaxArea prev avg pts = 0)) :=
  ⟨by simp, argmaxArea_first_largest ⟨0, 0⟩ ⟨1, 0⟩ (by simp)⟩

/-- The tie goes to the earlier point. -/
example : argmaxArea ⟨0, 0⟩ ⟨1, 0⟩ [⟨0, 0 / 0⟩, ⟨0, 2⟩, ⟨0, -2⟩, ⟨0, 1⟩] = 1 := by
  decide +kernel

end Scan

end Decimation
