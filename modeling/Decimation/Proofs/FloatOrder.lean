import Mathlib
import Decimation.Proofs.FloatArith
import Decimation.Series.Range
/-!
# The order of floats and the ranges it bounds

Two floats that are not NaN compare as their keys `keyOf` do in a linear order: the class of the
float from negative infinity up to positive infinity first, then, for two nonzero finite values of
one sign, the exponent and the mantissa, both reversed when the sign is negative. The two zeros
share one key, as they compare equal. `lt_iff_keyOf` and `le_iff_keyOf` carry the comparisons of
floats over to the keys, where the lemmas of a linear order apply; negative infinity has the least
key and positive infinity the greatest.

Read through the keys, a valid x-range `[start, end)` contains the values `v` that are not NaN with
`start ≤ v` and either `v < end` or `end = +Inf` (`XRange.contains_iff`), and two valid ranges
both keep exactly what their meet `[max start, min end)` keeps (`XRange.keeps_meet`), where
`[-Inf, +Inf)` keeps every value, NaN included.
-/

namespace Decimation

open Float.Model Float.Model.UnpackedFloat

/-! ## Keys -/

/-- The place of an unpacked float in the order of floats. NaN, which compares with nothing, is
given the key of zero. -/
def orderKey : UnpackedFloat → ℤ ×ₗ ℤ ×ₗ ℤ
  | .infinity .negative => toLex (0, toLex (0, 0))
  | .finite .negative m e _ => toLex (1, toLex (-e, -(m : ℤ)))
  | .zero _ => toLex (2, toLex (0, 0))
  | .notANumber => toLex (2, toLex (0, 0))
  | .finite .positive m e _ => toLex (3, toLex (e, (m : ℤ)))
  | .infinity .positive => toLex (4, toLex (0, 0))

/-- The key of negative infinity, the least. -/
def bottomKey : ℤ ×ₗ ℤ ×ₗ ℤ := toLex (0, toLex (0, 0))

/-- The key of positive infinity, the greatest. -/
def topKey : ℤ ×ₗ ℤ ×ₗ ℤ := toLex (4, toLex (0, 0))

theorem compare_sign : compare Sign.negative Sign.positive = .lt ∧
    compare Sign.positive Sign.negative = .gt := ⟨rfl, rfl⟩

theorem lt_eq_true_iff {u v : UnpackedFloat} (hu : u ≠ .notANumber) (hv : v ≠ .notANumber) :
    u.lt v = true ↔ orderKey u < orderKey v := by
  have hs := compare_sign
  -- a table over the classes of `u` and `v`: two finite values of one sign compare exponents and
  -- then mantissas, the other pairs compare by class
  rcases u with (_ | _) | _ | (_ | _) | ⟨_ | _, m, e, hm⟩ <;>
  rcases v with (_ | _) | _ | (_ | _) | ⟨_ | _, m', e', hm'⟩ <;>
  simp_all [UnpackedFloat.lt, UnpackedFloat.compare, orderKey, Prod.Lex.lt_iff,
    Ordering.then_eq_lt, Ordering.then_eq_gt, Int.compare_eq_lt, Int.compare_eq_gt,
    Nat.compare_eq_lt, Nat.compare_eq_gt]

theorem le_eq_true_iff {u v : UnpackedFloat} (hu : u ≠ .notANumber) (hv : v ≠ .notANumber) :
    u.le v = true ↔ orderKey u ≤ orderKey v := by
  have hs := compare_sign
  rcases u with (_ | _) | _ | (_ | _) | ⟨_ | _, m, e, hm⟩ <;>
  rcases v with (_ | _) | _ | (_ | _) | ⟨_ | _, m', e', hm'⟩ <;>
  simp_all [UnpackedFloat.le, UnpackedFloat.compare, orderKey, Prod.Lex.le_iff,
    Ordering.isLE_iff_ne_gt, Ordering.isGE_iff_ne_lt, Ordering.then_eq_lt, Ordering.then_eq_gt,
    Int.compare_eq_lt, Int.compare_eq_gt, Nat.compare_eq_lt, Nat.compare_eq_gt] <;> omega

theorem bottomKey_le (u : UnpackedFloat) : bottomKey ≤ orderKey u := by
  rcases u with (_ | _) | _ | (_ | _) | ⟨_ | _, m, e, hm⟩ <;>
  simp [bottomKey, orderKey, Prod.Lex.le_iff]

theorem le_topKey (u : UnpackedFloat) : orderKey u ≤ topKey := by
  rcases u with (_ | _) | _ | (_ | _) | ⟨_ | _, m, e, hm⟩ <;>
  simp [topKey, orderKey, Prod.Lex.le_iff]

/-- The key of a float. -/
def keyOf (x : Float) : ℤ ×ₗ ℤ ×ₗ ℤ := orderKey x.toModel.unpack

theorem ne_notANumber {x : Float} (h : x.isNaN = false) : x.toModel.unpack ≠ .notANumber := by
  intro hn
  change x.toModel.unpack.isNaN = false at h
  rw [hn] at h
  cases h

section

variable {a b : Float}

theorem lt_iff_keyOf (ha : a.isNaN = false) (hb : b.isNaN = false) : a < b ↔ keyOf a < keyOf b := by
  rw [lt_iff_unpack]
  exact lt_eq_true_iff (ne_notANumber ha) (ne_notANumber hb)

theorem le_iff_keyOf (ha : a.isNaN = false) (hb : b.isNaN = false) :
    a ≤ b ↔ keyOf a ≤ keyOf b := by
  show Float.le a b = true ↔ _
  unfold Float.le
  rw [decide_eq_true_iff]
  exact le_eq_true_iff (ne_notANumber ha) (ne_notANumber hb)

theorem bottomKey_le_keyOf (a : Float) : bottomKey ≤ keyOf a := bottomKey_le _

theorem keyOf_le_topKey (a : Float) : keyOf a ≤ topKey := le_topKey _

/-- The larger of two floats that are not NaN has the larger key. -/
theorem keyOf_max (ha : a.isNaN = false) (hb : b.isNaN = false) :
    keyOf (max a b) = max (keyOf a) (keyOf b) := by
  show keyOf (if a ≤ b then b else a) = _
  rw [max_def]
  by_cases h : a ≤ b
  · rw [if_pos h, if_pos ((le_iff_keyOf ha hb).mp h)]
  · rw [if_neg h, if_neg (mt (le_iff_keyOf ha hb).mpr h)]

theorem keyOf_min (ha : a.isNaN = false) (hb : b.isNaN = false) :
    keyOf (min a b) = min (keyOf a) (keyOf b) := by
  show keyOf (if a ≤ b then a else b) = _
  rw [min_def]
  by_cases h : a ≤ b
  · rw [if_pos h, if_pos ((le_iff_keyOf ha hb).mp h)]
  · rw [if_neg h, if_neg (mt (le_iff_keyOf ha hb).mpr h)]

theorem isNaN_max (ha : a.isNaN = false) (hb : b.isNaN = false) : (max a b).isNaN = false := by
  show (if a ≤ b then b else a).isNaN = false
  split <;> assumption

theorem isNaN_min (ha : a.isNaN = false) (hb : b.isNaN = false) : (min a b).isNaN = false := by
  show (if a ≤ b then a else b).isNaN = false
  split <;> assumption

end

/-! ## Infinite bounds -/

namespace XRange

theorem isNegInf_iff {a : Float} (ha : a.isNaN = false) : isNegInf a = true ↔ keyOf a = bottomKey := by
  have hz : (0 : Float).toModel.unpack = .zero .positive := rfl
  unfold isNegInf keyOf
  rw [Bool.and_eq_true, decide_eq_true_iff, lt_iff_unpack, hz]
  have hn := ne_notANumber ha
  change a.toModel.unpack.isInf = true ∧ _ ↔ _
  generalize a.toModel.unpack = u at hn ⊢
  rcases u with (_ | _) | _ | (_ | _) | ⟨_ | _, m, e, hm⟩ <;>
  simp_all [UnpackedFloat.isInf, UnpackedFloat.lt, UnpackedFloat.compare, orderKey, bottomKey]

theorem isPosInf_iff {a : Float} (ha : a.isNaN = false) : isPosInf a = true ↔ keyOf a = topKey := by
  have hz : (0 : Float).toModel.unpack = .zero .positive := rfl
  unfold isPosInf keyOf
  rw [Bool.and_eq_true, decide_eq_true_iff, GT.gt, lt_iff_unpack, hz]
  have hn := ne_notANumber ha
  change a.toModel.unpack.isInf = true ∧ _ ↔ _
  generalize a.toModel.unpack = u at hn ⊢
  rcases u with (_ | _) | _ | (_ | _) | ⟨_ | _, m, e, hm⟩ <;>
  simp_all [UnpackedFloat.isInf, UnpackedFloat.lt, UnpackedFloat.compare, orderKey, topKey]

/-- A range passes its check exactly when neither bound is NaN and the start does not pass the end. -/
theorem validate_eq_ok_iff {r : XRange} : r.validate = .ok () ↔
    r.start.isNaN = false ∧ r.stop.isNaN = false ∧ keyOf r.start ≤ keyOf r.stop := by
  unfold validate
  cases hs : r.start.isNaN
  · cases he : r.stop.isNaN
    · rw [Bool.or_false, if_neg Bool.false_ne_true]
      by_cases h : r.start > r.stop
      · have hk : keyOf r.stop < keyOf r.start := (lt_iff_keyOf he hs).mp h
        simp [h, not_le_of_gt hk]
      · have hk : ¬ keyOf r.stop < keyOf r.start := mt (lt_iff_keyOf he hs).mpr h
        simp [h, le_of_not_gt hk]
    · simp
  · simp

/-- What a range with bounds that are not NaN contains: values that are not NaN, from the start
on, and below the end unless the end is `+Inf`. A start of `-Inf` needs no case of its own, as no
key lies below its key. -/
theorem contains_iff {r : XRange} (hs : r.start.isNaN = false) (he : r.stop.isNaN = false)
    (v : Float) : r.contains v = true ↔
      v.isNaN = false ∧ keyOf r.start ≤ keyOf v ∧ (keyOf r.stop = topKey ∨ keyOf v < keyOf r.stop) := by
  unfold contains
  cases hv : v.isNaN
  · simp only [Bool.not_false, Bool.true_and, Bool.and_eq_true, Bool.or_eq_true, decide_eq_true_iff,
      GE.ge, isNegInf_iff hs, isPosInf_iff he, le_iff_keyOf hs hv, lt_iff_keyOf hv he, true_and]
    have := bottomKey_le_keyOf v
    constructor
    · rintro ⟨hlo | hlo, hhi⟩
      · exact ⟨hlo ▸ this, hhi⟩
      · exact ⟨hlo, hhi⟩
    · exact fun ⟨hlo, hhi⟩ => ⟨.inr hlo, hhi⟩
  · simp

theorem unbounded_iff {r : XRange} (hs : r.start.isNaN = false) (he : r.stop.isNaN = false) :
    r.unbounded = true ↔ keyOf r.start = bottomKey ∧ keyOf r.stop = topKey := by
  rw [unbounded, Bool.and_eq_true, isNegInf_iff hs, isPosInf_iff he]

/-- Whether restricting a frame to `r` keeps a row whose x value is `v`: every row for
`[-Inf, +Inf)`, which is taken as it is, and otherwise the rows whose x value `r` contains. -/
def keeps (r : XRange) (v : Float) : Bool := r.unbounded || r.contains v

/-- The same test through the keys. A NaN value passes the bounds of `[-Inf, +Inf)`, whose keys are
the least and the greatest. -/
theorem keeps_iff {r : XRange} (hr : r.validate = .ok ()) (v : Float) : r.keeps v = true ↔
    (v.isNaN = false ∨ keyOf r.start = bottomKey ∧ keyOf r.stop = topKey) ∧
      keyOf r.start ≤ keyOf v ∧ (keyOf r.stop = topKey ∨ keyOf v < keyOf r.stop) := by
  obtain ⟨hs, he, -⟩ := validate_eq_ok_iff.mp hr
  rw [keeps, Bool.or_eq_true, unbounded_iff hs he, contains_iff hs he]
  have := bottomKey_le_keyOf v
  grind

/-- The range of the values two ranges both bound: the later start and the earlier end. -/
def meet (r₁ r₂ : XRange) : XRange := ⟨max r₁.start r₂.start, min r₁.stop r₂.stop⟩

section

variable {r₁ r₂ : XRange}

theorem bounds_meet (h₁ : r₁.validate = .ok ()) (h₂ : r₂.validate = .ok ()) :
    (r₁.meet r₂).start.isNaN = false ∧ (r₁.meet r₂).stop.isNaN = false ∧
      keyOf (r₁.meet r₂).start = max (keyOf r₁.start) (keyOf r₂.start) ∧
      keyOf (r₁.meet r₂).stop = min (keyOf r₁.stop) (keyOf r₂.stop) := by
  obtain ⟨hs₁, he₁, -⟩ := validate_eq_ok_iff.mp h₁
  obtain ⟨hs₂, he₂, -⟩ := validate_eq_ok_iff.mp h₂
  exact ⟨isNaN_max hs₁ hs₂, isNaN_min he₁ he₂, keyOf_max hs₁ hs₂, keyOf_min he₁ he₂⟩

/-- Restricting to the meet keeps what restricting to both ranges keeps, whenever the meet is a
valid range. -/
theorem keeps_meet (h₁ : r₁.validate = .ok ()) (h₂ : r₂.validate = .ok ())
    (h : (r₁.meet r₂).validate = .ok ()) (v : Float) :
    (r₁.meet r₂).keeps v = (r₁.keeps v && r₂.keeps v) := by
  obtain ⟨-, -, hs, he⟩ := bounds_meet h₁ h₂
  rw [Bool.eq_iff_iff, Bool.and_eq_true, keeps_iff h, keeps_iff h₁, keeps_iff h₂, hs, he]
  have := bottomKey_le_keyOf r₁.start
  have := bottomKey_le_keyOf r₂.start
  have := keyOf_le_topKey r₁.stop
  have := keyOf_le_topKey r₂.stop
  grind

/-- When the later start passes the earlier end, no value passes both ranges. -/
theorem keeps_of_meet_invalid (h₁ : r₁.validate = .ok ()) (h₂ : r₂.validate = .ok ())
    (h : (r₁.meet r₂).validate ≠ .ok ()) (v : Float) : (r₁.keeps v && r₂.keeps v) = false := by
  obtain ⟨hs, he, hks, hke⟩ := bounds_meet h₁ h₂
  have hlt : min (keyOf r₁.stop) (keyOf r₂.stop) < max (keyOf r₁.start) (keyOf r₂.start) := by
    rw [← hks, ← hke]
    exact lt_of_not_ge fun hle => h (validate_eq_ok_iff.mpr ⟨hs, he, hle⟩)
  rw [Bool.eq_false_iff, ne_eq, Bool.and_eq_true, keeps_iff h₁, keeps_iff h₂]
  obtain ⟨-, -, h₁⟩ := validate_eq_ok_iff.mp h₁
  obtain ⟨-, -, h₂⟩ := validate_eq_ok_iff.mp h₂
  have := keyOf_le_topKey r₁.start
  have := keyOf_le_topKey r₂.start
  grind

end

end XRange

end Decimation
