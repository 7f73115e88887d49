import Mathlib
import Decimation.Proofs.FloatArith
import Decimation.Decimal.Read
import Decimation.Decimal.Layout
/-!
# Decimals that round to a float

A finite positive float `m * 2^e` stands for the rationals of its rounding interval. This file
proves both directions of its decimal text against that interval.

* Writing: the shortest decimal of the float (`Binary.shortest`) lies in the interval. The
  interval test `Binary.readsBack` decides membership exactly (`Binary.readsBack_iff`), and the
  search returns only decimals that pass it, or the exact value.
* Reading: `Float.ofScientific m s e` is the float nearest to `m * 10^±e`
  (`ofScientific_posValue`), and `nearestDecimal` returns the float whose interval holds the
  decimal (`nearestDecimal_eq_some`). A value has one canonical form
  (`Canonical.eq_of_value_eq`), so the float is determined by the value.
-/

namespace Decimation

open Float.Model Float.Model.UnpackedFloat

/-! ## The rounding interval -/

section Bounds

variable {mF : ℕ} {eF : ℤ} {v : ℚ}

/-- Every value that rounds to a finite float lies at or above half the least subnormal. -/
theorem InRoundingInterval.two_zpow_le (hc : Canonical mF eF) (h : InRoundingInterval mF eF v) :
    (2 : ℚ) ^ (-1075 : ℤ) ≤ v := by
  have hm : (1 : ℚ) ≤ mF := by exact_mod_cast hc.pos
  have hg := (halfGapBelow_le mF eF).2
  have he : (2 : ℚ) ^ (-1074 : ℤ) ≤ 2 ^ eF := zpow_le_zpow_right₀ one_le_two hc.least
  have h2 : (2 : ℚ) ^ (-1075 : ℤ) = 2 ^ (-1074 : ℤ) / 2 := by
    rw [show (-1075 : ℤ) = -1074 - 1 by norm_num, zpow_sub₀ two_ne_zero, zpow_one]
  calc (2 : ℚ) ^ (-1075 : ℤ) ≤ (1 / 2) * 2 ^ eF := by rw [h2]; linarith
    _ ≤ (mF - halfGapBelow mF eF) * 2 ^ eF := by gcongr; linarith
    _ ≤ v := h.lower

/-- Every value that rounds to a finite float lies below `2^1024`. -/
theorem InRoundingInterval.lt_two_pow_1024 (hc : Canonical mF eF) (he : eF ≤ 971)
    (h : InRoundingInterval mF eF v) : v < 2 ^ 1024 := by
  have h1 := h.lt_two_pow hc
  have h2 : (2 : ℚ) ^ eF ≤ 2 ^ (971 : ℤ) := zpow_le_zpow_right₀ one_le_two he
  calc v < 2 ^ 53 * 2 ^ eF := h1
    _ ≤ 2 ^ 53 * 2 ^ (971 : ℤ) := by gcongr
    _ = 2 ^ 1024 := by rw [show (971 : ℤ) = ((971 : ℕ) : ℤ) from rfl, zpow_natCast, ← pow_add]

end Bounds

/-- The rounding interval as strict bounds with their even ends. -/
theorem inRoundingInterval_iff {mF : ℕ} {eF : ℤ} {v : ℚ} :
    InRoundingInterval mF eF v ↔
      ((mF - halfGapBelow mF eF) * 2 ^ eF < v ∨ mF % 2 = 0 ∧ v = (mF - halfGapBelow mF eF) * 2 ^ eF) ∧
        (v < (mF + 1 / 2) * 2 ^ eF ∨ mF % 2 = 0 ∧ v = (mF + 1 / 2) * 2 ^ eF) := by
  constructor
  · rintro ⟨hlo, hhi, hlo_even, hhi_even⟩
    refine ⟨?_, ?_⟩
    · rcases hlo.lt_or_eq with h | h
      · exact .inl h
      · exact .inr ⟨hlo_even h.symm, h.symm⟩
    · rcases hhi.lt_or_eq with h | h
      · exact .inl h
      · exact .inr ⟨hhi_even h, h⟩
  · rintro ⟨hlo | ⟨hev, hlo⟩, hhi | ⟨hev', hhi⟩⟩ <;>
      exact ⟨by linarith, by linarith, fun _ => by simp_all, fun _ => by simp_all⟩

/-! ## One canonical form per value -/

namespace Canonical

variable {m m' : ℕ} {e e' : ℤ}

/-- Of two canonical forms of one value, neither has the smaller exponent: the other mantissa
would have to be at least twice as long, past 53 bits, or the larger exponent would have to be
above the least one. -/
theorem not_exponent_lt (hc : Canonical m e) (hc' : Canonical m' e')
    (h : (m : ℚ) * 2 ^ e = m' * 2 ^ e') : ¬ e < e' := by
  intro hlt
  obtain ⟨j, hj⟩ : ∃ j : ℕ, e' = e + (j + 1 : ℕ) := ⟨(e' - e - 1).toNat, by omega⟩
  have hq : (m : ℚ) = m' * 2 ^ (j + 1) := by
    rw [hj, zpow_add₀ two_ne_zero, zpow_natCast] at h
    have hp : (0 : ℚ) < 2 ^ e := zpow_pos two_pos e
    nlinarith [h]
  have hn : m = m' * 2 ^ (j + 1) := by exact_mod_cast hq
  rcases hc'.normal with hn' | hleast
  · have h2 : 2 ≤ 2 ^ (j + 1) := Nat.le_self_pow (by omega) 2
    have := Nat.mul_le_mul hn' h2
    have := hc.lt
    omega
  · have := hc.least
    omega

/-- A value has one canonical form. -/
theorem eq_of_value_eq (hc : Canonical m e) (hc' : Canonical m' e')
    (h : (m : ℚ) * 2 ^ e = m' * 2 ^ e') : m = m' ∧ e = e' := by
  have he : e = e' := le_antisymm (not_lt.mp (hc'.not_exponent_lt hc h.symm))
    (not_lt.mp (hc.not_exponent_lt hc' h))
  subst he
  have hp : (0 : ℚ) < 2 ^ e := zpow_pos two_pos e
  exact ⟨by exact_mod_cast mul_right_cancel₀ hp.ne' h, rfl⟩

end Canonical

/-! ## From a decimal to a float -/

/-- The powers of ten up to `10^22` are floats: five to such a power has at most 53 bits. -/
theorem posValue_powerOfTen {e : ℕ} (he : e < Float.exactlyRepresentablePowersOfTen.size) :
    PosValue Float.exactlyRepresentablePowersOfTen[e] (10 ^ e) := by
  have hsize : Float.exactlyRepresentablePowersOfTen.size = 23 := rfl
  rw [hsize] at he
  have h5 : 5 ^ e < 2 ^ 53 :=
    lt_of_le_of_lt (Nat.pow_le_pow_right (by norm_num) (show e ≤ 22 by omega)) (by norm_num)
  have hL : (5 ^ e).log2 < 53 := (Nat.log2_lt (by positivity)).mpr h5
  refine ⟨5 ^ e <<< (52 - (5 ^ e).log2), (e : ℤ) + (5 ^ e).log2 - 52,
    by rw [Nat.shiftLeft_eq]; positivity, ?_, ?_⟩
  · rw [Array.getElem_eq_getD 0]
    interval_cases e <;> rfl
  · have hsum : (((52 - (5 ^ e).log2 : ℕ) : ℤ)) + ((e : ℤ) + (5 ^ e).log2 - 52) = e := by omega
    have key : ((5 ^ e <<< (52 - (5 ^ e).log2) : ℕ) : ℚ) * 2 ^ ((e : ℤ) + (5 ^ e).log2 - 52) =
        10 ^ e := by
      rw [Nat.shiftLeft_eq]
      push_cast
      rw [mul_assoc, ← zpow_natCast (2 : ℚ), ← zpow_add₀ two_ne_zero, hsum, zpow_natCast, ← mul_pow]
      norm_num
    exact key.symm

/-- The model's `m * 10^k` is the float whose rounding interval holds it: the guards against huge
powers of ten never fire for a value that rounds to a finite float, and the product or quotient
is exact before its one rounding. -/
theorem ofScientific_unpacked_eq {m : ℕ} {k : ℤ} (hm : 0 < m) {mF : ℕ} {eF : ℤ}
    (hc : Canonical mF eF) (he : eF ≤ 971) (hin : InRoundingInterval mF eF (m * 10 ^ k)) :
    UnpackedFloat.ofScientific .binary64 m k = .finite .positive mF eF hc.pos := by
  have hlo := hin.two_zpow_le hc
  have hhi := hin.lt_two_pow_1024 hc he
  have hm1 : (1 : ℚ) ≤ m := by exact_mod_cast hm
  -- a power of ten above `10^2048` is too large
  have hk1 : ¬ k > 2 ^ Format.binary64.exponentBits := by
    intro hk
    have hk' : (2049 : ℤ) ≤ k := hk
    obtain ⟨j, rfl⟩ : ∃ j : ℕ, k = j := ⟨k.toNat, by omega⟩
    have hj : 2049 ≤ j := by exact_mod_cast hk'
    have : (2 : ℚ) ^ 1024 ≤ m * 10 ^ (j : ℤ) := by
      rw [zpow_natCast]
      calc (2 : ℚ) ^ 1024 ≤ 2 ^ j := pow_le_pow_right₀ one_le_two (by omega)
        _ ≤ 10 ^ j := pow_le_pow_left₀ (by norm_num) (by norm_num) j
        _ ≤ m * 10 ^ j := le_mul_of_one_le_left (by positivity) hm1
    exact absurd hhi (not_lt.mpr this)
  -- a power of ten below `10^-(2048 + log2 m)` is too small
  have hk2 : ¬ k < -((2 ^ Format.binary64.exponentBits : ℤ) + m.log2) := by
    intro hk
    have hk' : k ≤ -(2049 + (m.log2 : ℤ)) := by
      have : (2 : ℤ) ^ Format.binary64.exponentBits = 2048 := rfl
      omega
    obtain ⟨j, rfl⟩ : ∃ j : ℕ, k = -(j : ℤ) := ⟨(-k).toNat, by omega⟩
    have hj : 2049 + m.log2 ≤ j := by omega
    have hmlt : (m : ℚ) < 2 ^ (m.log2 + 1) := by exact_mod_cast Nat.lt_log2_self
    have h2j : (2 : ℚ) ^ (-1075 : ℤ) * 2 ^ j = 2 ^ (j - 1075) := by
      rw [← zpow_natCast, ← zpow_natCast, ← zpow_add₀ two_ne_zero]
      congr 1
      omega
    have : (m : ℚ) * 10 ^ (-(j : ℤ)) < 2 ^ (-1075 : ℤ) := by
      rw [zpow_neg, zpow_natCast, ← div_eq_mul_inv, div_lt_iff₀ (by positivity)]
      calc (m : ℚ) < 2 ^ (m.log2 + 1) := hmlt
        _ ≤ 2 ^ (j - 1075) := pow_le_pow_right₀ one_le_two (by omega)
        _ = 2 ^ (-1075 : ℤ) * 2 ^ j := h2j.symm
        _ ≤ 2 ^ (-1075 : ℤ) * 10 ^ j := by
            gcongr
            norm_num
    exact absurd hlo (not_le.mpr this)
  unfold UnpackedFloat.ofScientific
  rw [dif_neg hm.ne', if_neg hk1, if_neg hk2]
  split
  · -- multiply `m` by the exact power `10^k`
    rename_i hk
    obtain ⟨j, rfl⟩ : ∃ j : ℕ, k = j := ⟨k.toNat, by omega⟩
    have h53 : Format.binary64.mantissaBits = 53 := rfl
    refine mul_finite_eq _ _ hc ?_ (.inl ?_)
    · have hval : ((m <<< Format.binary64.mantissaBits : ℕ) : ℚ) *
          2 ^ (-(Format.binary64.mantissaBits : ℤ)) * (((10 ^ (j : ℤ).toNat : ℕ) : ℚ) * 2 ^ (0 : ℤ)) =
          m * 10 ^ (j : ℤ) := by
        have e1 : ((m <<< 53 : ℕ) : ℚ) = (m : ℚ) * 2 ^ ((53 : ℕ) : ℤ) := by
          rw [Nat.shiftLeft_eq, zpow_natCast]
          push_cast
          ring
        rw [h53, e1, Int.toNat_natCast, zpow_zero, mul_one, mul_assoc (m : ℚ),
          ← zpow_add₀ two_ne_zero, add_neg_cancel, zpow_zero, mul_one, zpow_natCast]
        push_cast
        rfl
      rw [hval]
      exact hin
    · -- the shifted mantissa alone has 54 bits
      have hpos : 0 < m <<< Format.binary64.mantissaBits * 10 ^ (j : ℤ).toNat := by
        rw [Nat.shiftLeft_eq]
        positivity
      rw [Nat.le_log2 hpos.ne', h53, Nat.shiftLeft_eq]
      have h1 : 2 ^ 52 ≤ 2 ^ 53 := Nat.pow_le_pow_right two_pos (by norm_num)
      have h2 : 2 ^ 53 ≤ m * 2 ^ 53 := Nat.le_mul_of_pos_left (2 ^ 53) hm
      have h3 : m * 2 ^ 53 ≤ m * 2 ^ 53 * 10 ^ (j : ℤ).toNat :=
        Nat.le_mul_of_pos_right (m * 2 ^ 53) (Nat.pow_pos (by norm_num))
      exact h1.trans (h2.trans h3)
  · -- divide `m` by the exact power `10^-k`
    rename_i hk
    obtain ⟨j, rfl⟩ : ∃ j : ℕ, k = -(j : ℤ) := ⟨(-k).toNat, by omega⟩
    refine div_finite_eq _ _ hc ?_
    have hval : (m : ℚ) * 2 ^ (0 : ℤ) / (((10 ^ (- -(j : ℤ)).toNat : ℕ) : ℚ) * 2 ^ (0 : ℤ)) =
        m * 10 ^ (-(j : ℤ)) := by
      rw [neg_neg, Int.toNat_natCast, zpow_zero, mul_one, mul_one, zpow_neg, zpow_natCast,
        div_eq_mul_inv]
      push_cast
      rfl
    rw [hval]
    exact hin

/-- `Float.ofScientific m s e` is the float nearest to `m * 10^e`, or to `m / 10^e` when `s`
holds: with both factors floats it rounds once, and otherwise the model multiplies or divides
exactly and rounds once. -/
theorem ofScientific_posValue {m e : ℕ} {s : Bool} {z : ℚ} (hm : 0 < m)
    (h : RoundsTo ((m : ℚ) * 10 ^ (if s then -(e : ℤ) else e)) z) :
    PosValue (Float.ofScientific m s e) z := by
  unfold Float.ofScientific
  split
  · -- both factors are floats
    rename_i hfast
    have hp := posValue_powerOfTen (e := e)
      (by have : Float.exactlyRepresentablePowersOfTen.size = 23 := rfl; omega)
    have hmF := posValue_toFloat hm hfast.1
    cases s
    · simp only [Bool.false_eq_true, ↓reduceIte, zpow_natCast] at h
      exact hmF.mul hp h
    · simp only [↓reduceIte, zpow_neg, zpow_natCast, ← div_eq_mul_inv] at h
      exact hmF.div hp h
  · -- otherwise the model multiplies or divides exactly and rounds once
    obtain ⟨mF, eF, hc, he, hin, rfl⟩ := h
    have hk : (if s then Int.negOfNat e else Int.ofNat e) = (if s then -(e : ℤ) else e) := by
      cases s <;> rfl
    refine posValue_of_toModel_eq (u := UnpackedFloat.ofScientific .binary64 m
      (if s then -(e : ℤ) else e)) ?_ hc he (ofScientific_unpacked_eq hm hc he hin)
    show Float.Model.pack (UnpackedFloat.ofScientific .binary64 m
      (if s then Int.negOfNat e else Int.ofNat e)) = _
    rw [hk]

/-- `2^1024`, the first power of two past every float, is below `10^310`. -/
theorem two_pow_1024_le : (2 : ℚ) ^ 1024 ≤ 10 ^ 310 := by
  have h : (2 : ℚ) ^ 1024 = (2 ^ 10) ^ 102 * 2 ^ 4 := by rw [← pow_mul, ← pow_add]
  have h' : (10 : ℚ) ^ 310 = (10 ^ 3) ^ 102 * 10 ^ 4 := by rw [← pow_mul, ← pow_add]
  rw [h, h']
  norm_num

/-- `2^1075`, twice the inverse of the least subnormal, is below `10^331`. -/
theorem two_pow_1075_le : (2 : ℚ) ^ 1075 ≤ 10 ^ 331 := by
  have h : (2 : ℚ) ^ 1075 = (2 ^ 10) ^ 107 * 2 ^ 5 := by rw [← pow_mul, ← pow_add]
  have h' : (10 : ℚ) ^ 331 = (10 ^ 3) ^ 107 * 10 ^ 10 := by rw [← pow_mul, ← pow_add]
  rw [h, h']
  norm_num

/-- The number of digits of a positive number bounds it by powers of ten. -/
theorem pow_le_of_length_repr {m : ℕ} (hm : 0 < m) :
    10 ^ (m.repr.length - 1) ≤ m ∧ m < 10 ^ m.repr.length := by
  have hpos : 0 < m.repr.length := Nat.length_repr_pos
  refine ⟨?_, (Nat.length_repr_le_iff hpos).mp le_rfl⟩
  rcases Nat.lt_or_ge 1 m.repr.length with h | h
  · exact not_lt.mp fun hlt => absurd ((Nat.length_repr_le_iff (by omega)).mpr hlt) (by omega)
  · rw [show m.repr.length - 1 = 0 by omega, pow_zero]
    exact hm

/-- A decimal that rounds to a finite float has its leading digit between the powers `10^-331`
and `10^309`: more than 310 digits before the point is beyond every float, and more than 330
zeros after it is below every float. -/
theorem length_repr_add_mem {m : ℕ} {k : ℤ} (hm : 0 < m) {mF : ℕ} {eF : ℤ}
    (hc : Canonical mF eF) (he : eF ≤ 971) (hin : InRoundingInterval mF eF (m * 10 ^ k)) :
    -330 ≤ (m.repr.length : ℤ) + k ∧ (m.repr.length : ℤ) + k ≤ 310 := by
  obtain ⟨hlo10, hhi10⟩ := pow_le_of_length_repr hm
  have hsize : 0 < m.repr.length := Nat.length_repr_pos
  set size := m.repr.length
  have hlo := hin.two_zpow_le hc
  have hhi := hin.lt_two_pow_1024 hc he
  have hlo10q : (10 : ℚ) ^ ((size : ℤ) - 1 + k) ≤ m * 10 ^ k := by
    rw [zpow_add₀ (by norm_num)]
    gcongr
    rw [show (size : ℤ) - 1 = ((size - 1 : ℕ) : ℤ) by omega, zpow_natCast]
    exact_mod_cast hlo10
  have hhi10q : (m : ℚ) * 10 ^ k < 10 ^ ((size : ℤ) + k) := by
    rw [zpow_add₀ (by norm_num), zpow_natCast]
    gcongr
    exact_mod_cast hhi10
  constructor
  · by_contra h
    have h1 : (10 : ℚ) ^ ((size : ℤ) + k) ≤ 2 ^ (-1075 : ℤ) := calc
      (10 : ℚ) ^ ((size : ℤ) + k) ≤ 10 ^ (-331 : ℤ) := zpow_le_zpow_right₀ (by norm_num) (by omega)
      _ ≤ 2 ^ (-1075 : ℤ) := by
        rw [zpow_neg, zpow_neg, zpow_ofNat, zpow_ofNat]
        exact inv_anti₀ (by positivity) two_pow_1075_le
    exact absurd hlo (not_le.mpr (hhi10q.trans_le h1))
  · by_contra h
    have h1 : (2 : ℚ) ^ 1024 ≤ 10 ^ ((size : ℤ) - 1 + k) := calc
      (2 : ℚ) ^ 1024 ≤ 10 ^ (310 : ℤ) := by rw [zpow_ofNat]; exact two_pow_1024_le
      _ ≤ 10 ^ ((size : ℤ) - 1 + k) := zpow_le_zpow_right₀ (by norm_num) (by omega)
    exact absurd hhi (not_lt.mpr (h1.trans hlo10q))

/-- A decimal whose value lies in the rounding interval of a finite float reads as that float:
the guards on its number of digits never fire for such a value. -/
theorem nearestDecimal_eq_some {m : ℕ} {k : ℤ} (hm : 0 < m) {mF : ℕ} {eF : ℤ}
    (hc : Canonical mF eF) (he : eF ≤ 971) (hin : InRoundingInterval mF eF (m * 10 ^ k)) :
    ∃ f, Decimal.nearestDecimal m k = some f ∧ f.toModel.unpack = .finite .positive mF eF hc.pos := by
  obtain ⟨hsmall, hbig⟩ := length_repr_add_mem hm hc he hin
  have hround : ∀ s e, ((m : ℚ) * 10 ^ (if s then -(e : ℤ) else e) = m * 10 ^ k) →
      PosValue (Float.ofScientific m s e) (mF * 2 ^ eF) := fun s e hk =>
    ofScientific_posValue hm (by rw [hk]; exact ⟨mF, eF, hc, he, hin, rfl⟩)
  have hpos : PosValue (if 0 ≤ k then Float.ofScientific m false k.toNat
      else Float.ofScientific m true (-k).toNat) (mF * 2 ^ eF) := by
    split
    · exact hround false k.toNat (by simp only [Bool.false_eq_true, ↓reduceIte]; congr; omega)
    · exact hround true (-k).toNat (by simp only [↓reduceIte]; congr; omega)
  obtain ⟨m', e', hm', hu, hv⟩ := hpos
  obtain ⟨hc', -⟩ := PosValue.canonical hu
  obtain ⟨rfl, rfl⟩ := hc.eq_of_value_eq hc' hv
  refine ⟨_, ?_, hu⟩
  unfold Decimal.nearestDecimal
  simp only [Nat.toString_eq_repr]
  rw [if_neg hm.ne', if_neg (not_lt.mpr hbig), if_neg (not_lt.mpr hsmall)]
  simp only [Float.isInf, Float.Model.isInf, hu, UnpackedFloat.isInf, Bool.false_eq_true, ↓reduceIte]


/-! ## The shortest decimal of a float -/

namespace Decimal

/-- The value of a decimal. -/
def value (d : Decimal) : ℚ := d.coeff * 10 ^ d.exp

/-- Moving trailing zeros into the exponent keeps the value. -/
@[simp] theorem value_normalize (d : Decimal) : d.normalize.value = d.value := by
  fun_induction normalize d with
  | case1 d h ih =>
    rw [ih, value, value, Nat.cast_div (Nat.dvd_of_mod_eq_zero h.2) (by norm_num),
      zpow_add_one₀ (by norm_num)]
    ring
  | case2 d h => rfl

end Decimal

/-- Two comparisons agree when their strict orders and equalities do. -/
theorem compare_eq_compare {α β : Type} [LinearOrder α] [LinearOrder β] {a b : α} {c d : β}
    (hlt : a < b ↔ c < d) (heq : a = b ↔ c = d) : compare a b = compare c d := by
  rcases lt_trichotomy a b with h | h | h
  · rw [compare_lt_iff_lt.mpr h, compare_lt_iff_lt.mpr (hlt.mp h)]
  · rw [compare_eq_iff_eq.mpr h, compare_eq_iff_eq.mpr (heq.mp h)]
  · have hcd : d < c := by
      rcases lt_trichotomy c d with h' | h' | h'
      · exact absurd (hlt.mpr h') (not_lt.mpr h.le)
      · exact absurd (heq.mpr h') h.ne'
      · exact h'
    rw [compare_gt_iff_gt.mpr h, compare_gt_iff_gt.mpr hcd]

/-- The exact comparison of `a * 10^i` with `n * 2^j`. -/
theorem Binary.cmpScaled_eq (a : ℕ) (i : ℤ) (n : ℕ) (j : ℤ) :
    Binary.cmpScaled a i n j = compare ((a : ℚ) * 10 ^ i) (n * 2 ^ j) := by
  -- both sides were multiplied by `10^-i * 2^-j`
  set c : ℚ := 10 ^ (-i).toNat * 2 ^ (-j).toNat
  have hc : 0 < c := by positivity
  have h10 : (10 : ℚ) ^ i * 10 ^ (-i).toNat = 10 ^ i.toNat := by
    rw [← zpow_natCast, ← zpow_natCast, ← zpow_add₀ (by norm_num)]
    congr 1
    omega
  have h2 : (2 : ℚ) ^ j * 2 ^ (-j).toNat = 2 ^ j.toNat := by
    rw [← zpow_natCast, ← zpow_natCast, ← zpow_add₀ two_ne_zero]
    congr 1
    omega
  have hX : ((a * Nat.pow 10 i.toNat * Nat.pow 2 (-j).toNat : ℕ) : ℚ) = a * 10 ^ i * c := by
    simp only [Nat.pow_eq]
    push_cast
    rw [← h10]
    ring
  have hY : ((n * Nat.pow 2 j.toNat * Nat.pow 10 (-i).toNat : ℕ) : ℚ) = n * 2 ^ j * c := by
    simp only [Nat.pow_eq]
    push_cast
    rw [← h2]
    ring
  unfold Binary.cmpScaled
  refine compare_eq_compare ?_ ?_
  · rw [← Nat.cast_lt (α := ℚ), hX, hY]
    exact mul_lt_mul_iff_of_pos_right hc
  · rw [← Nat.cast_inj (R := ℚ), hX, hY]
    exact mul_left_inj' hc.ne'

/-- The magnitude read straight from the bits of a finite float, with whether the gap below
it is narrow. -/
theorem ofBits_eq_of_unpack {b : UInt64} {s : Sign} {m : ℕ} {e : ℤ} {hm : 0 < m}
    (hu : UnpackedFloat.unpack .binary64 b.toBitVec = .finite s m e hm) :
    Binary.ofBits b = ⟨m, e, decide (m = 2 ^ 52 ∧ -1074 < e)⟩ := by
  unfold Binary.ofBits
  rw [exponentField_eq, mantissaField_eq]
  rcases (fields_of_unpack_eq hu).2 with ⟨h0, rfl, rfl⟩ | ⟨h0, h1, rfl, rfl⟩
  · simp [h0]
  · simp [h0.ne', Nat.pow_eq]
    congr 1
    simp only [decide_eq_decide]
    omega

namespace Binary

/-- The bounds of the interval test, at the scale `2^(q-2)`, are the ends of the rounding
interval. -/
theorem lower_bound_eq {x : Binary} (hm : 0 < x.mantissa)
    (hn : x.narrowBelow = decide (x.mantissa = 2 ^ 52 ∧ -1074 < x.exponent)) :
    (((if x.narrowBelow then 4 * x.mantissa - 1 else 4 * x.mantissa - 2 : ℕ) : ℚ)) *
        2 ^ (x.exponent - 2) =
      (x.mantissa - halfGapBelow x.mantissa x.exponent) * 2 ^ x.exponent := by
  have h4 : (2 : ℚ) ^ (x.exponent - 2) = 2 ^ x.exponent / 4 := by
    rw [zpow_sub₀ two_ne_zero]
    norm_num
  rw [hn, halfGapBelow, h4]
  by_cases h : x.mantissa = 2 ^ 52 ∧ -1074 < x.exponent
  · rw [if_pos (decide_eq_true h), if_pos h, Nat.cast_sub (by omega)]
    push_cast
    ring
  · rw [if_neg (by simpa using h), if_neg h, Nat.cast_sub (by omega)]
    push_cast
    ring

theorem upper_bound_eq (x : Binary) :
    ((4 * x.mantissa + 2 : ℕ) : ℚ) * 2 ^ (x.exponent - 2) = (x.mantissa + 1 / 2) * 2 ^ x.exponent := by
  rw [zpow_sub₀ two_ne_zero]
  push_cast
  ring

/-- The interval test decides whether a decimal lies in the rounding interval of `x`. -/
theorem readsBack_iff {x : Binary} (hm : 0 < x.mantissa)
    (hn : x.narrowBelow = decide (x.mantissa = 2 ^ 52 ∧ -1074 < x.exponent)) {d : Decimal} :
    x.readsBack d = true ↔ InRoundingInterval x.mantissa x.exponent d.value := by
  rw [inRoundingInterval_iff, ← lower_bound_eq hm hn, ← upper_bound_eq]
  unfold readsBack
  simp only [cmpScaled_eq, Decimal.value, Bool.and_eq_true, Bool.or_eq_true, beq_iff_eq,
    compare_gt_iff_gt, compare_lt_iff_lt, compare_eq_iff_eq]

/-- A decimal found on a grid reads back. -/
theorem readsBack_of_onGrid {x : Binary} {g : ℤ} {d : Decimal} (h : x.onGrid g = some d) :
    x.readsBack d = true := by
  unfold onGrid at h
  dsimp only at h
  split at h
  · rename_i hdown hup
    split at h
    · cases h
      exact hdown
    · cases h
      exact hup
    · cases h
      split
      · exact hdown
      · exact hup
  · rename_i hdown _
    cases h
    exact hdown
  · rename_i _ hup
    cases h
    exact hup
  · cases h

/-- The exact decimal of `x` has the value of `x`. -/
theorem value_exact (x : Binary) : x.exact.value = x.mantissa * 2 ^ x.exponent := by
  unfold exact Decimal.value
  split
  · rename_i he
    simp only [Nat.pow_eq, Nat.cast_mul, Nat.cast_pow, Nat.cast_ofNat, zpow_zero, mul_one]
    rw [← zpow_natCast, Int.toNat_of_nonneg he]
  · rename_i he
    obtain ⟨j, hj⟩ : ∃ j : ℕ, x.exponent = -(j : ℤ) := ⟨(-x.exponent).toNat, by omega⟩
    simp only [Nat.pow_eq, Nat.cast_mul, Nat.cast_pow, Nat.cast_ofNat, hj, neg_neg,
      Int.toNat_natCast, zpow_neg, zpow_natCast]
    rw [show (10 : ℚ) = 2 * 5 by norm_num, mul_pow]
    field_simp

/-- The shortest decimal of `x` lies in its rounding interval: a decimal found on a grid reads
back, and the exact value is the float itself. -/
theorem shortest_mem {x : Binary} (hm : 0 < x.mantissa)
    (hn : x.narrowBelow = decide (x.mantissa = 2 ^ 52 ∧ -1074 < x.exponent)) :
    InRoundingInterval x.mantissa x.exponent x.shortest.value := by
  unfold shortest
  dsimp only
  split
  · rename_i d hd
    obtain ⟨n, -, hgrid⟩ := List.exists_of_findSome?_eq_some hd
    rw [Decimal.value_normalize, ← readsBack_iff hm hn]
    exact readsBack_of_onGrid hgrid
  · rw [Decimal.value_normalize, value_exact]
    exact .self

end Binary

end Decimation
