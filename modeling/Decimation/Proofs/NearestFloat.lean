import Mathlib
import Decimation.Proofs.Rounding
/-!
# The float nearest to a rational

Every rational above half the least subnormal has a nearest binary64 value, ties going to the
even mantissa, once exponents are unbounded above (`exists_inRoundingInterval`); below `2^1023`
that value is a finite float, and `RoundsTo v z` says that `z` is it. Rounding a float gives
the float itself (`roundsTo_self`), and above the subnormals rounding moves a value by at most
`2^-53` of it (`RoundsTo.abs_sub_le`), the unit roundoff of binary64.
-/

namespace Decimation

/-! ## Nearest natural numbers -/

namespace NearestEven

variable {w : ℚ} {n : ℕ}

theorem abs_sub_le (h : NearestEven w n) : |w - n| ≤ 1 / 2 := by
  rcases h with h | ⟨h, -⟩
  · exact h.le
  · exact h.le

/-- At a tie the nearest natural number is the even one. -/
theorem mod_two_of_abs_eq (h : NearestEven w n) (he : |w - n| = 1 / 2) : n % 2 = 0 := by
  rcases h with h | ⟨-, h⟩
  · rw [he] at h
    exact absurd h (lt_irrefl _)
  · exact h

end NearestEven

/-- Every nonnegative rational has a nearest natural number, ties going to the even one. -/
theorem exists_nearestEven {w : ℚ} (hw : 0 ≤ w) : ∃ n : ℕ, NearestEven w n := by
  set a := ⌊w⌋₊
  have ha : (a : ℚ) ≤ w := Nat.floor_le hw
  have ha' : w < a + 1 := Nat.lt_floor_add_one w
  -- the whole part or the next natural number, by where the fraction lies against one half
  rcases lt_trichotomy (w - a) (1 / 2) with hlt | heq | hgt
  · exact ⟨a, .inl (abs_lt.mpr ⟨by linarith, hlt⟩)⟩
  · rcases Nat.even_or_odd a with he | ho
    · exact ⟨a, .inr ⟨by rw [heq]; norm_num, Nat.even_iff.mp he⟩⟩
    · refine ⟨a + 1, .inr ⟨?_, by rw [Nat.odd_iff] at ho; omega⟩⟩
      rw [show w - ((a + 1 : ℕ) : ℚ) = -(1 / 2) by push_cast; linarith, abs_neg]
      norm_num
  · refine ⟨a + 1, .inl (abs_lt.mpr ⟨?_, ?_⟩)⟩ <;> push_cast <;> linarith

/-! ## The rounding interval of the nearest float -/

namespace InRoundingInterval

variable {m : ℕ} {e : ℤ} {v : ℚ}

/-- A value whose nearest natural number at the scale `2^e` is `m` lies in the rounding
interval of `m * 2^e`, provided it is not below `m * 2^e` where the gap below is narrow. -/
theorem of_nearestEven (h : NearestEven (v / 2 ^ e) m)
    (hbot : m = 2 ^ 52 ∧ -1074 < e → m * 2 ^ e ≤ v) : InRoundingInterval m e v := by
  have hp : (0 : ℚ) < 2 ^ e := zpow_pos two_pos e
  have hw := abs_le.mp h.abs_sub_le
  have hlo : ((m : ℚ) - 1 / 2) * 2 ^ e ≤ v := by
    rw [← le_div_iff₀ hp]
    linarith
  have hhi : v ≤ ((m : ℚ) + 1 / 2) * 2 ^ e := by
    rw [← div_le_iff₀ hp]
    linarith
  -- at either end of the interval the value is a tie at the scale `2^e`
  have htie : ∀ c : ℚ, |c| = 1 / 2 → v = (m + c) * 2 ^ e → m % 2 = 0 := by
    intro c hc hv
    apply h.mod_two_of_abs_eq
    rw [hv, mul_div_cancel_right₀ _ hp.ne', add_sub_cancel_left, hc]
  by_cases hnarrow : m = 2 ^ 52 ∧ -1074 < e
  · have hm : m % 2 = 0 := by rw [hnarrow.1]; norm_num
    have hg : halfGapBelow m e = 1 / 4 := if_pos hnarrow
    refine ⟨?_, hhi, fun _ => hm, fun _ => hm⟩
    calc ((m : ℚ) - halfGapBelow m e) * 2 ^ e ≤ m * 2 ^ e := by rw [hg]; gcongr; norm_num
      _ ≤ v := hbot hnarrow
  · have hg : halfGapBelow m e = 1 / 2 := if_neg hnarrow
    refine ⟨by rw [hg]; exact hlo, hhi, fun hv => ?_, fun hv => htie (1 / 2) (by norm_num) hv⟩
    exact htie (-(1 / 2)) (by norm_num) (by rw [hv, hg]; ring)

/-- A value whose nearest natural number at the scale `2^t` is `2^53` lies in the rounding
interval of `2^52 * 2^(t + 1)`. -/
theorem of_nearestEven_carry {t : ℤ} (h : NearestEven (v / 2 ^ t) (2 ^ 53))
    (hv : v < 2 ^ 53 * 2 ^ t) (ht : -1074 ≤ t) : InRoundingInterval (2 ^ 52) (t + 1) v := by
  have hp : (0 : ℚ) < 2 ^ t := zpow_pos two_pos t
  have hw := abs_le.mp h.abs_sub_le
  have hgap : halfGapBelow (2 ^ 52) (t + 1) = 1 / 4 := by
    simp [halfGapBelow, show -1074 < t + 1 by omega]
  have hsucc : (2 : ℚ) ^ (t + 1) = 2 * 2 ^ t := by rw [zpow_add_one₀ two_ne_zero, mul_comm]
  have hm : (2 ^ 52 : ℕ) % 2 = 0 := by norm_num
  refine ⟨?_, ?_, fun _ => hm, fun _ => hm⟩
  · rw [hgap, hsucc]
    push_cast at hw ⊢
    have : (2 ^ 53 - 1 / 2 : ℚ) * 2 ^ t ≤ v := by rw [← le_div_iff₀ hp]; linarith
    linarith
  · rw [hsucc]
    push_cast
    linarith

/-- A float is the nearest float to itself. -/
theorem self : InRoundingInterval m e (m * 2 ^ e) := by
  have hp : (0 : ℚ) < 2 ^ e := zpow_pos two_pos e
  have hg := halfGapBelow_le m e
  have hlt : ((m : ℚ) - halfGapBelow m e) * 2 ^ e < m * 2 ^ e := by gcongr; linarith
  have hgt : (m : ℚ) * 2 ^ e < (m + 1 / 2) * 2 ^ e := by gcongr; linarith
  exact ⟨hlt.le, hgt.le, fun h => absurd h hlt.ne', fun h => absurd h hgt.ne⟩

/-- The nearest float to a value below `2^1023` has an exponent no greater than the greatest
a finite float has. -/
theorem exponent_le (hc : Canonical m e) (h : InRoundingInterval m e v) (hv : v < 2 ^ 1023) :
    e ≤ 971 := by
  rcases hc.normal with hn | he
  · have h51 := h.two_pow_lt hn
    rw [← two_zpow_natCast_add] at h51
    have hlt : (2 : ℚ) ^ (((51 : ℕ) : ℤ) + e) < 2 ^ ((1023 : ℕ) : ℤ) := by
      rw [zpow_natCast]
      exact h51.trans hv
    have := (zpow_lt_zpow_iff_right₀ (one_lt_two : (1 : ℚ) < 2)).mp hlt
    omega
  · omega

end InRoundingInterval

/-- Every rational above half the least subnormal has a nearest float with an unbounded
exponent: at the scale `2^t` of its last mantissa bit it rounds to a natural number, which
becomes the mantissa, or `2^53` carries into the next exponent. -/
theorem exists_inRoundingInterval {v : ℚ} (hv : 2 ^ (-1075 : ℤ) < v) :
    ∃ mF eF, Canonical mF eF ∧ InRoundingInterval mF eF v := by
  have hv0 : 0 < v := lt_trans (zpow_pos two_pos _) hv
  set k := Int.log 2 v
  have hk1 : (2 : ℚ) ^ k ≤ v := by exact_mod_cast Int.zpow_log_le_self one_lt_two hv0
  have hk2 : v < (2 : ℚ) ^ (k + 1) := by exact_mod_cast Int.lt_zpow_succ_log_self one_lt_two v
  set t := max (k - 52) (-1074)
  have hp : (0 : ℚ) < 2 ^ t := zpow_pos two_pos t
  have hpow : ∀ a b : ℤ, a ≤ b → (2 : ℚ) ^ a ≤ 2 ^ b := fun a b h =>
    zpow_le_zpow_right₀ one_le_two h
  set w := v / 2 ^ t
  have hw53 : w < 2 ^ 53 := by
    rw [div_lt_iff₀ hp]
    calc v < 2 ^ (k + 1) := hk2
      _ ≤ 2 ^ (((53 : ℕ) : ℤ) + t) := hpow _ _ (by omega)
      _ = 2 ^ 53 * 2 ^ t := two_zpow_natCast_add 53 t
  have hw52 : -1074 < t → 2 ^ 52 ≤ w := by
    intro ht
    rw [le_div_iff₀ hp, ← two_zpow_natCast_add]
    exact (hpow _ _ (by omega)).trans hk1
  have hwhalf : 1 / 2 < w := by
    by_cases ht : t = -1074
    · rw [lt_div_iff₀ hp, ht]
      calc 1 / 2 * (2 : ℚ) ^ (-1074 : ℤ) = 2 ^ (-1075 : ℤ) := by
            rw [show (-1075 : ℤ) = -1074 - 1 by norm_num, zpow_sub₀ two_ne_zero, zpow_one]
            ring
        _ < v := hv
    · have := hw52 (by omega)
      linarith
  obtain ⟨n, hn⟩ := exists_nearestEven (by positivity : 0 ≤ w)
  have hnw := abs_le.mp hn.abs_sub_le
  have hn1 : 0 < n := by
    have : (0 : ℚ) < n := by linarith
    exact_mod_cast this
  have hn53 : n ≤ 2 ^ 53 := by
    have : (n : ℚ) < 2 ^ 53 + 1 := by linarith
    exact Nat.lt_succ_iff.mp (by exact_mod_cast this)
  rcases Nat.lt_or_eq_of_le hn53 with hlt | rfl
  · -- the nearest natural number is the mantissa
    have hnormal : 2 ^ 52 ≤ n ∨ t = -1074 := by
      by_cases ht : t = -1074
      · exact .inr ht
      · have := hw52 (by omega)
        have : ((2 ^ 52 : ℕ) : ℚ) < n + 1 := by push_cast; linarith
        have : 2 ^ 52 < n + 1 := by exact_mod_cast this
        exact .inl (by omega)
    refine ⟨n, t, ⟨hn1, hlt, le_max_right _ _, hnormal⟩, .of_nearestEven hn fun hb => ?_⟩
    rw [hb.1, ← le_div_iff₀ hp]
    exact_mod_cast hw52 hb.2
  · -- rounding carried into the next exponent
    refine ⟨2 ^ 52, t + 1, ⟨by positivity, by norm_num, by omega, .inl le_rfl⟩, ?_⟩
    exact .of_nearestEven_carry hn ((div_lt_iff₀ hp).mp hw53) (le_max_right _ _)

/-! ## Rounding to a finite float -/

/-- `z` is the finite binary64 value nearest to `v`, ties going to the even mantissa. -/
def RoundsTo (v z : ℚ) : Prop :=
  ∃ mF eF, Canonical mF eF ∧ eF ≤ 971 ∧ InRoundingInterval mF eF v ∧ z = mF * 2 ^ eF

/-- Every rational between half the least subnormal and `2^1023` rounds to a finite float. -/
theorem exists_roundsTo {v : ℚ} (hlo : 2 ^ (-1075 : ℤ) < v) (hhi : v < 2 ^ 1023) :
    ∃ z, RoundsTo v z := by
  obtain ⟨mF, eF, hc, hin⟩ := exists_inRoundingInterval hlo
  exact ⟨mF * 2 ^ eF, mF, eF, hc, hin.exponent_le hc hhi, hin, rfl⟩

/-- A finite float rounds to itself. -/
theorem roundsTo_self {m : ℕ} {e : ℤ} (hc : Canonical m e) (he : e ≤ 971) :
    RoundsTo (m * 2 ^ e) (m * 2 ^ e) :=
  ⟨m, e, hc, he, .self, rfl⟩

namespace RoundsTo

variable {v z : ℚ}

/-- Above the subnormals, rounding moves a value by at most `2^-53` of it. -/
theorem abs_sub_le (h : RoundsTo v z) (hv : 2 ^ (-1022 : ℤ) ≤ v) : |z - v| ≤ v / 2 ^ 53 := by
  obtain ⟨mF, eF, hc, -, hin, rfl⟩ := h
  have hleast : (2 : ℚ) ^ 52 * 2 ^ (-1074 : ℤ) = 2 ^ (-1022 : ℤ) := by
    rw [← two_zpow_natCast_add]
    norm_num
  -- the float is normal: a subnormal rounds only values below `2^-1022`
  have hn : 2 ^ 52 ≤ mF := by
    by_contra hm
    have hlt := hin.lt_two_pow_of_lt (by omega)
    rw [hc.normal.resolve_left hm] at hlt
    linarith
  have hnq : (2 : ℚ) ^ 52 ≤ mF := by exact_mod_cast hn
  have hlow := hin.lower
  have hup := hin.upper
  rcases le_or_gt (mF * 2 ^ eF : ℚ) v with hle | hgt
  · -- above the float: at most half a step, and the value is at least `2^52` steps
    rw [abs_of_nonpos (by linarith), le_div_iff₀ (by norm_num)]
    nlinarith [zpow_pos (two_pos : (0 : ℚ) < 2) eF]
  · -- below the float: at most the half gap below, which is narrow at the bottom of a binade
    rw [abs_of_pos (by linarith), le_div_iff₀ (by norm_num)]
    unfold halfGapBelow at hlow
    split at hlow
    · nlinarith [zpow_pos (two_pos : (0 : ℚ) < 2) eF]
    · -- a wide gap below the bottom of a binade only at the least normal value, which
      -- nothing below rounds to
      rename_i hwide
      have hm : 2 ^ 52 + 1 ≤ mF := by
        by_contra hm
        obtain rfl : mF = 2 ^ 52 := by omega
        obtain rfl : eF = -1074 := by
          have := hc.least
          by_contra
          exact hwide ⟨rfl, by omega⟩
        rw [Nat.cast_pow, Nat.cast_ofNat] at hgt
        linarith
      have hmq : (2 : ℚ) ^ 52 + 1 ≤ mF := by exact_mod_cast hm
      nlinarith [zpow_pos (two_pos : (0 : ℚ) < 2) eF]

end RoundsTo

/-- Every value from one half to `2^1022` rounds to a finite float at most `2^-53` of it
away. -/
theorem exists_roundsTo_of_half_le {v : ℚ} (hlo : 1 / 2 ≤ v) (hhi : v ≤ 2 ^ 1022) :
    ∃ z, RoundsTo v z ∧ |z - v| ≤ v / 2 ^ 53 := by
  have hnormal : (2 : ℚ) ^ (-1022 : ℤ) ≤ v := calc
    (2 : ℚ) ^ (-1022 : ℤ) ≤ 2 ^ (-1 : ℤ) := zpow_le_zpow_right₀ one_le_two (by norm_num)
    _ = 1 / 2 := by norm_num
    _ ≤ v := hlo
  have hsub : (2 : ℚ) ^ (-1075 : ℤ) < 2 ^ (-1022 : ℤ) := zpow_lt_zpow_right₀ one_lt_two (by norm_num)
  obtain ⟨z, hz⟩ := exists_roundsTo (hsub.trans_le hnormal)
    (hhi.trans_lt (pow_lt_pow_right₀ one_lt_two (by norm_num)))
  exact ⟨z, hz, hz.abs_sub_le hnormal⟩

end Decimation
