import Mathlib
import Decimation.Proofs.FloatBits
/-!
# Rounding to nearest in the float model

The float model rounds an exact result given as a mantissa `M` at an exponent `E`, with an
`Accuracy` telling where the exact value lies between `M * 2^E` and `(M + 1) * 2^E`. It shifts
the mantissa right to the exponent a binary64 value of that size has, keeping the first bit
shifted out and whether any other was set, rounds to nearest with ties to even, and shifts once
more when rounding carried into a new bit.

Here that process is read as arithmetic on rationals. An extended mantissa `Approximates` a
rational `w` when its mantissa is the whole part of `w` and its two extra bits place the rest
against one half; shifting right halves `w` (`approximates_shiftRight`), and rounding picks the
natural number nearest to `w`, ties to even (`roundedMantissa_eq`). The main statement,
`roundWithAccuracy_eq`, is that rounding any value of the rounding interval of a finite float
(`InRoundingInterval`) gives that float.
-/

namespace Decimation

open Float.Model Float.Model.UnpackedFloat

/-! ## Extended mantissas as rationals -/

/-- The extended mantissa `em` stands for the rational `w`: its mantissa is the whole part of
`w`, its round bit tells whether the rest is at least one half, and its sticky bit whether the
rest is neither zero nor one half. -/
def Approximates (em : ExtendedMantissa) (w : ℚ) : Prop :=
  (em.mantissa : ℚ) ≤ w ∧ w < em.mantissa + 1 ∧
    (em.roundBit = true ↔ (em.mantissa : ℚ) + 1 / 2 ≤ w) ∧
    (em.stickyBit = true ↔ w ≠ em.mantissa ∧ w ≠ em.mantissa + 1 / 2)

/-- Either extra bit is set exactly when the value is not the mantissa itself. -/
theorem Approximates.extra_iff {em : ExtendedMantissa} {w : ℚ} (h : Approximates em w) :
    (em.roundBit || em.stickyBit) = true ↔ w ≠ em.mantissa := by
  obtain ⟨hlo, -, hr, hs⟩ := h
  rw [Bool.or_eq_true, hr, hs]
  constructor
  · rintro (h | ⟨h, -⟩)
    · intro he
      linarith
    · exact h
  · intro hne
    by_cases hhalf : w = em.mantissa + 1 / 2
    · exact Or.inl hhalf.ge
    · exact Or.inr ⟨hne, hhalf⟩

/-- Shifting out one bit halves the value: the bit shifted out becomes the round bit, and the
old round and sticky bits together tell whether anything below it was set. -/
theorem approximates_shiftRightOne {em : ExtendedMantissa} {w : ℚ} (h : Approximates em w) :
    Approximates em.shiftRightOne (w / 2) := by
  have hextra := h.extra_iff
  obtain ⟨hlo, hhi, -, -⟩ := h
  -- the mantissa is twice the new one plus the bit shifted out
  have hdiv : (em.mantissa : ℚ) = 2 * (em.mantissa / 2 : ℕ) + (em.mantissa % 2 : ℕ) := by
    exact_mod_cast (Nat.div_add_mod em.mantissa 2).symm
  simp only [Approximates, ExtendedMantissa.shiftRightOne, hextra, bne_iff_ne, ne_eq]
  generalize em.mantissa / 2 = q at hdiv
  rcases Nat.mod_two_eq_zero_or_one em.mantissa with hb | hb
  · rw [hb, Nat.cast_zero, add_zero] at hdiv
    rw [hb]
    refine ⟨by linarith, by linarith, ⟨fun h => absurd rfl h, fun h => by linarith⟩,
      ⟨fun h => ⟨fun he => h (by linarith), fun he => by linarith⟩,
        fun h he => h.1 (by linarith)⟩⟩
  · rw [hb, Nat.cast_one] at hdiv
    rw [hb]
    refine ⟨by linarith, by linarith, ⟨fun _ => by linarith, fun _ => one_ne_zero⟩,
      ⟨fun h => ⟨fun he => by linarith, fun he => h (by linarith)⟩,
        fun h he => h.2 (by linarith)⟩⟩

theorem shiftRight_succ (em : ExtendedMantissa) (n : ℕ) :
    em >>> (n + 1) = (em >>> n).shiftRightOne := rfl

/-- Shifting out `n` bits divides the value by `2^n`. -/
theorem approximates_shiftRight {em : ExtendedMantissa} {w : ℚ} (h : Approximates em w)
    (n : ℕ) : Approximates (em >>> n) (w / 2 ^ n) := by
  induction n with
  | zero =>
    show Approximates em (w / 2 ^ 0)
    simpa using h
  | succ n ih =>
    rw [shiftRight_succ, pow_succ, ← div_div]
    exact approximates_shiftRightOne ih

/-- `n` is the natural number nearest to `w`, the even one of two at the same distance. -/
def NearestEven (w : ℚ) (n : ℕ) : Prop :=
  |w - n| < 1 / 2 ∨ (|w - n| = 1 / 2 ∧ n % 2 = 0)

/-- Rounding an extended mantissa gives the natural number nearest to its value. -/
theorem roundedMantissa_eq {em : ExtendedMantissa} {w : ℚ} (h : Approximates em w) {n : ℕ}
    (hn : NearestEven w n) : em.roundedMantissa = n := by
  obtain ⟨hlo, hhi, hr, hs⟩ := h
  obtain ⟨q, r, s⟩ := em
  simp only at hlo hhi hr hs
  -- `n` lies within one half of `w`, so it is `q` or `q + 1`
  have hnear : (n : ℚ) - 1 / 2 ≤ w ∧ w ≤ n + 1 / 2 := by
    have : |w - n| ≤ 1 / 2 := by rcases hn with hn | ⟨hn, -⟩ <;> linarith
    constructor <;> linarith [abs_le.mp this]
  have hq : q ≤ n := by
    have : (q : ℚ) < n + 1 := by linarith
    exact_mod_cast Nat.lt_succ_iff.mp (by exact_mod_cast this)
  have hq1 : n ≤ q + 1 := by
    have : (n : ℚ) < q + 2 := by linarith
    have : n < q + 2 := by exact_mod_cast this
    omega
  simp only [ExtendedMantissa.roundedMantissa, ExtendedMantissa.accuracy]
  have hcases : n = q ∨ n = q + 1 := by omega
  cases r <;> cases s <;> simp only [Accuracy.roundToNearestEven] <;>
    simp only [Bool.false_eq_true, false_iff, true_iff, not_le, ne_eq, not_and_or,
      not_not] at hr hs
  · -- exact: the value is the mantissa
    rcases hcases with rfl | rfl
    · rfl
    · push_cast at hnear
      linarith [hnear.1]
  · -- below one half
    rcases hcases with rfl | rfl
    · rfl
    · push_cast at hnear
      linarith [hnear.1]
  · -- a tie: both neighbours are one half away, and the even one is taken
    have hw : w = q + 1 / 2 := by
      rcases hs with hs | hs
      · exact absurd hs (by intro he; linarith)
      · exact hs
    have heven : n % 2 = 0 := by
      rcases hn with hn | ⟨-, hn⟩
      · exfalso
        rcases hcases with rfl | rfl
        · rw [hw, add_sub_cancel_left, abs_of_pos (by norm_num)] at hn
          linarith
        · rw [hw] at hn
          push_cast at hn
          rw [show (q : ℚ) + 1 / 2 - (q + 1) = -(1 / 2) by ring, abs_neg,
            abs_of_pos (by norm_num)] at hn
          linarith
      · exact hn
    omega
  · -- above one half
    rcases hcases with rfl | rfl
    · have : (n : ℚ) + 1 / 2 < w := lt_of_le_of_ne hr (Ne.symm hs.2)
      linarith [hnear.2]
    · rfl

/-- An exact mantissa stands for itself. -/
theorem approximates_exact (M : ℕ) :
    Approximates (ExtendedMantissa.ofMantissaAndAccuracy M .exact) M := by
  simp only [Approximates, ExtendedMantissa.ofMantissaAndAccuracy, Bool.false_eq_true,
    false_iff, not_le, ne_eq, not_true_eq_false, false_and, and_true]
  refine ⟨le_rfl, by linarith, by linarith⟩

/-- The quotient `q` with remainder `r` of a division by `d` stands for `q + r / d`. -/
theorem approximates_accuracyOfFraction (q : ℕ) {r d : ℕ} (hrd : r < d) :
    Approximates (ExtendedMantissa.ofMantissaAndAccuracy q (accuracyOfFraction r d))
      (q + r / d) := by
  have hd : (0 : ℚ) < d := by exact_mod_cast Nat.zero_lt_of_lt hrd
  have hf1 : (r : ℚ) / d < 1 := (div_lt_one hd).mpr (by exact_mod_cast hrd)
  have hf0 : (0 : ℚ) ≤ r / d := by positivity
  unfold accuracyOfFraction
  split
  · rename_i hr
    subst hr
    simpa using approximates_exact q
  · rename_i hr
    have hfpos : (0 : ℚ) < r / d := div_pos (by exact_mod_cast Nat.pos_of_ne_zero hr) hd
    have hr' : (r : ℚ) = r / d * d := by field_simp
    -- where the fraction lies against one half decides the two extra bits
    rcases lt_trichotomy (2 * r) d with hlt | heq | hgt
    · have h2 : ((2 * r : ℕ) : ℚ) < d := by exact_mod_cast hlt
      push_cast at h2
      have hhalf : (r : ℚ) / d < 1 / 2 := by rw [div_lt_iff₀ hd]; linarith
      rw [compare_lt_iff_lt.mpr hlt]
      simp only [Approximates, ExtendedMantissa.ofMantissaAndAccuracy, Bool.false_eq_true,
        false_iff, not_le, ne_eq, true_iff]
      refine ⟨by linarith, by linarith, by linarith, fun h => by linarith, fun h => by linarith⟩
    · have h2 : ((2 * r : ℕ) : ℚ) = d := by exact_mod_cast heq
      push_cast at h2
      have hhalf : (r : ℚ) / d = 1 / 2 := by rw [div_eq_iff hd.ne']; linarith
      rw [compare_eq_iff_eq.mpr heq]
      simp only [Approximates, ExtendedMantissa.ofMantissaAndAccuracy, Bool.false_eq_true,
        false_iff, true_iff, ne_eq, hhalf, not_and, not_not]
      refine ⟨by linarith, by linarith, le_rfl, fun _ => trivial⟩
    · have h2 : (d : ℚ) < ((2 * r : ℕ) : ℚ) := by exact_mod_cast hgt
      push_cast at h2
      have hhalf : 1 / 2 < (r : ℚ) / d := by rw [lt_div_iff₀ hd]; linarith
      rw [compare_gt_iff_gt.mpr hgt]
      simp only [Approximates, ExtendedMantissa.ofMantissaAndAccuracy, true_iff, ne_eq]
      refine ⟨by linarith, by linarith, by linarith, fun h => by linarith, fun h => by linarith⟩

/-! ## The exponent a result is rounded at -/

/-- The exponent of the last mantissa bit of a binary64 value whose leading bit is that of
`M * 2^E`: 52 places below it, but never below the least exponent. -/
theorem targetExponent_binary64 (M : ℕ) (E : ℤ) :
    Format.binary64.targetExponent (totalExponent M E) = max (M.log2 + E - 52) (-1074) := by
  simp only [Format.targetExponent, totalExponent, Format.mantissaBits, Format.minExponent]
  norm_num
  omega

theorem shiftToTargetExponent_eq (M : ℕ) (E : ℤ) (acc : Accuracy) :
    shiftToTargetExponent .binary64 M E acc =
      (ExtendedMantissa.ofMantissaAndAccuracy M acc >>> (max (M.log2 + E - 52) (-1074) - E).toNat,
        E + (max (M.log2 + E - 52) (-1074) - E).toNat) := by
  simp only [shiftToTargetExponent, shiftToExponent, targetExponent_binary64]

/-- A mantissa of at most 53 bits at an exponent no less than the least is not shifted. -/
theorem shiftToTargetExponent_of_lt {r : ℕ} {e : ℤ} (hr : r < 2 ^ 53) (he : -1074 ≤ e) :
    shiftToTargetExponent .binary64 r e .exact = (⟨r, false, false⟩, e) := by
  have hlog : r.log2 ≤ 52 := by
    rcases Nat.eq_zero_or_pos r with rfl | hpos
    · simp
    · exact Nat.lt_succ_iff.mp ((Nat.log2_lt hpos.ne').mpr hr)
  rw [shiftToTargetExponent_eq, show (max (r.log2 + e - 52) (-1074) - e).toNat = 0 by omega,
    Nat.cast_zero, add_zero]
  rfl

/-- A mantissa that rounding carried to `2^53` loses its last bit, which is zero. -/
theorem shiftToTargetExponent_two_pow {e : ℤ} (he : -1074 ≤ e) :
    shiftToTargetExponent .binary64 (2 ^ 53) e .exact = (⟨2 ^ 52, false, false⟩, e + 1) := by
  rw [shiftToTargetExponent_eq, Nat.log2_two_pow,
    show (max (((53 : ℕ) : ℤ) + e - 52) (-1074) - e).toNat = 1 by omega, Nat.cast_one]
  rfl

/-- Rounding gives the float `mF * 2^eF` when the first shift lands at `eF` and rounds to
`mF`, or lands one place lower and rounds up to `2^53`, so that the second shift brings it
to `2^52` at `eF`. -/
theorem roundWithAccuracy_eq_of_rounded {s : Sign} {M : ℕ} {E : ℤ} {acc : Accuracy}
    {em : ExtendedMantissa} {T : ℤ} {mF : ℕ} {eF : ℤ} (hF : 0 < mF)
    (hfirst : shiftToTargetExponent .binary64 M E acc = (em, T))
    (hround : (em.roundedMantissa = mF ∧ T = eF ∧ mF < 2 ^ 53 ∧ -1074 ≤ eF) ∨
      (em.roundedMantissa = 2 ^ 53 ∧ T + 1 = eF ∧ mF = 2 ^ 52 ∧ -1074 ≤ T)) :
    roundWithAccuracy .binary64 s M E acc = .finite s mF eF hF := by
  unfold roundWithAccuracy
  rw [hfirst]
  dsimp only
  rcases hround with ⟨hr, rfl, hlt, he⟩ | ⟨hr, rfl, rfl, he⟩
  · rw [hr, shiftToTargetExponent_of_lt hlt he]
    simp only [hF.ne', ↓reduceDIte]
  · rw [hr, shiftToTargetExponent_two_pow he]
    simp only [show (2 : ℕ) ^ 52 ≠ 0 by positivity, ↓reduceDIte]

/-! ## The rounding interval of a float -/

/-- `mF * 2^eF` is a finite nonzero binary64 value in the form the model keeps it: a mantissa
of 53 bits, or a smaller one at the least exponent. -/
structure Canonical (mF : ℕ) (eF : ℤ) : Prop where
  pos : 0 < mF
  lt : mF < 2 ^ 53
  least : -1074 ≤ eF
  normal : 2 ^ 52 ≤ mF ∨ eF = -1074

/-- Half the gap from `mF * 2^eF` down to the float below, in units of `2^eF`: a quarter at
the bottom of a binade above the subnormals, where the gap below is half the gap above, and a
half elsewhere. -/
def halfGapBelow (mF : ℕ) (eF : ℤ) : ℚ := if mF = 2 ^ 52 ∧ -1074 < eF then 1 / 4 else 1 / 2

theorem halfGapBelow_le (mF : ℕ) (eF : ℤ) :
    1 / 4 ≤ halfGapBelow mF eF ∧ halfGapBelow mF eF ≤ 1 / 2 := by
  unfold halfGapBelow
  split <;> norm_num

/-- The reals that round to `mF * 2^eF`: those within half the gap to each neighbour, the
ends included when `mF` is even. -/
structure InRoundingInterval (mF : ℕ) (eF : ℤ) (v : ℚ) : Prop where
  lower : (mF - halfGapBelow mF eF) * 2 ^ eF ≤ v
  upper : v ≤ (mF + 1 / 2) * 2 ^ eF
  lower_even : v = (mF - halfGapBelow mF eF) * 2 ^ eF → mF % 2 = 0
  upper_even : v = (mF + 1 / 2) * 2 ^ eF → mF % 2 = 0

theorem two_zpow_natCast_add (k : ℕ) (e : ℤ) : (2 : ℚ) ^ ((k : ℤ) + e) = 2 ^ k * 2 ^ e := by
  rw [zpow_add₀ two_ne_zero, zpow_natCast]

namespace InRoundingInterval

variable {mF : ℕ} {eF : ℤ} {v : ℚ}

/-- Every value of the interval lies below the next power of two above the float. -/
theorem lt_two_pow (hc : Canonical mF eF) (h : InRoundingInterval mF eF v) :
    v < 2 ^ 53 * 2 ^ eF := by
  have hm : (mF : ℚ) + 1 ≤ 2 ^ 53 := by exact_mod_cast hc.lt
  have hp : (0 : ℚ) < 2 ^ eF := zpow_pos two_pos eF
  calc v ≤ (mF + 1 / 2) * 2 ^ eF := h.upper
    _ < 2 ^ 53 * 2 ^ eF := by gcongr; linarith

/-- Every value of the interval of a subnormal lies below the least normal binade. -/
theorem lt_two_pow_of_lt (h : InRoundingInterval mF eF v) (hsub : mF < 2 ^ 52) : v < 2 ^ 52 * 2 ^ eF := by
  have hm : (mF : ℚ) + 1 ≤ 2 ^ 52 := by exact_mod_cast hsub
  have hp : (0 : ℚ) < 2 ^ eF := zpow_pos two_pos eF
  calc v ≤ (mF + 1 / 2) * 2 ^ eF := h.upper
    _ < 2 ^ 52 * 2 ^ eF := by gcongr; linarith

/-- Every value of the interval of a normal float lies above half its binade. -/
theorem two_pow_lt (h : InRoundingInterval mF eF v) (hn : 2 ^ 52 ≤ mF) :
    2 ^ 51 * 2 ^ eF < v := by
  have hm : (2 : ℚ) ^ 52 ≤ mF := by exact_mod_cast hn
  have hp : (0 : ℚ) < 2 ^ eF := zpow_pos two_pos eF
  have hg := (halfGapBelow_le mF eF).2
  calc (2 : ℚ) ^ 51 * 2 ^ eF < (mF - halfGapBelow mF eF) * 2 ^ eF := by gcongr; linarith
    _ ≤ v := h.lower

/-- Every value of the interval is at least half the least subnormal's step. -/
theorem half_le (hc : Canonical mF eF) (h : InRoundingInterval mF eF v) :
    2 ^ eF / 2 ≤ v := by
  have hm : (1 : ℚ) ≤ mF := by exact_mod_cast hc.pos
  have hp : (0 : ℚ) < 2 ^ eF := zpow_pos two_pos eF
  have hg := (halfGapBelow_le mF eF).2
  calc (2 : ℚ) ^ eF / 2 ≤ (mF - halfGapBelow mF eF) * 2 ^ eF := by
        rw [div_eq_mul_one_div, mul_comm]; gcongr; linarith
    _ ≤ v := h.lower

/-- A value of the interval of a normal float below its binade belongs to the binade's first
float. -/
theorem eq_two_pow (h : InRoundingInterval mF eF v) (hn : 2 ^ 52 ≤ mF)
    (hv : v < 2 ^ 52 * 2 ^ eF) : mF = 2 ^ 52 := by
  have hp : (0 : ℚ) < 2 ^ eF := zpow_pos two_pos eF
  have hg := (halfGapBelow_le mF eF).2
  have hlt : ((mF : ℚ) - halfGapBelow mF eF) * 2 ^ eF < 2 ^ 52 * 2 ^ eF :=
    lt_of_le_of_lt h.lower hv
  have hm : (mF : ℚ) < 2 ^ 52 + 1 := by
    have := lt_of_mul_lt_mul_right hlt hp.le
    linarith
  have : mF < 2 ^ 52 + 1 := by exact_mod_cast hm
  omega

end InRoundingInterval

/-- A positive `M * 2^E` is at least the power of two of its leading bit. -/
theorem two_zpow_log2_le {M : ℕ} (hM : 0 < M) (E : ℤ) :
    (2 : ℚ) ^ ((M.log2 : ℤ) + E) ≤ M * 2 ^ E := by
  rw [two_zpow_natCast_add]
  have : (2 : ℚ) ^ M.log2 ≤ M := by exact_mod_cast Nat.log2_self_le hM.ne'
  gcongr

/-- `(M + 1) * 2^E` is at most the power of two above the leading bit of `M * 2^E`. -/
theorem succ_mul_le_two_zpow_log2 (M : ℕ) (E : ℤ) :
    ((M : ℚ) + 1) * 2 ^ E ≤ 2 ^ ((M.log2 : ℤ) + 1 + E) := by
  rw [show (M.log2 : ℤ) + 1 + E = ((M.log2 + 1 : ℕ) : ℤ) + E by push_cast; ring,
    two_zpow_natCast_add]
  have : (M : ℚ) + 1 ≤ 2 ^ (M.log2 + 1) := by exact_mod_cast Nat.lt_log2_self
  gcongr

/-- Where a value of the rounding interval of `mF * 2^eF` given as `M * 2^E` plus less than
`2^E` is rounded: at `eF`, or one place lower when the value lies just below the binade of
`mF = 2^52`. -/
theorem target_cases {M : ℕ} {E : ℤ} {v : ℚ} {mF : ℕ} {eF : ℤ} (hc : Canonical mF eF)
    (hin : InRoundingInterval mF eF v) (hlo : M * 2 ^ E ≤ v) (hhi : v < (M + 1) * 2 ^ E)
    (hbits : 52 ≤ M.log2 ∨ E ≤ -1074) :
    max ((M.log2 : ℤ) + E - 52) (-1074) = eF ∨
      (mF = 2 ^ 52 ∧ max ((M.log2 : ℤ) + E - 52) (-1074) + 1 = eF ∧ v < 2 ^ 52 * 2 ^ eF) := by
  have hexp : ∀ a b : ℤ, (2 : ℚ) ^ a < 2 ^ b ↔ a < b :=
    fun a b => zpow_lt_zpow_iff_right₀ one_lt_two
  have hleast := hc.least
  have htop := hin.lt_two_pow hc
  rw [← two_zpow_natCast_add] at htop
  rcases Nat.eq_zero_or_pos M with rfl | hM
  · -- no bit above `2^E`, so the value is below `2^E ≤ 2^-1074`
    have hE : E ≤ -1074 := by simpa using hbits
    have hv : v < 2 ^ E := by simpa using hhi
    by_cases hn : 2 ^ 52 ≤ mF
    · have h51 := hin.two_pow_lt hn
      rw [← two_zpow_natCast_add] at h51
      have := (hexp _ _).mp (h51.trans hv)
      omega
    · left
      have := hc.normal.resolve_left hn
      simp only [Nat.log2_zero, Nat.cast_zero, zero_add]
      omega
  · -- the leading bit of `M * 2^E` places the value between two powers of two
    have hL := (two_zpow_log2_le hM E).trans hlo
    have hU := hhi.trans_le (succ_mul_le_two_zpow_log2 M E)
    have h1 : (M.log2 : ℤ) + E < ((53 : ℕ) : ℤ) + eF := (hexp _ _).mp (hL.trans_lt htop)
    by_cases hn : 2 ^ 52 ≤ mF
    · have h51 := hin.two_pow_lt hn
      rw [← two_zpow_natCast_add] at h51
      have h2 : ((51 : ℕ) : ℤ) + eF < (M.log2 : ℤ) + 1 + E := (hexp _ _).mp (h51.trans hU)
      push_cast at h1 h2
      by_cases hk : (M.log2 : ℤ) + E = 52 + eF
      · left
        omega
      · by_cases hmin : eF = -1074
        · left
          omega
        · -- one place lower: the value is below `2^52 * 2^eF`
          right
          have hv : v < 2 ^ 52 * 2 ^ eF := by
            rw [← two_zpow_natCast_add]
            calc v < 2 ^ ((M.log2 : ℤ) + 1 + E) := hU
              _ = 2 ^ (((52 : ℕ) : ℤ) + eF) := by congr 1; push_cast; omega
          exact ⟨hin.eq_two_pow hn hv, by omega, hv⟩
    · -- a subnormal: the value lies below the least normal binade
      left
      have he := hc.normal.resolve_left hn
      have hv := hin.lt_two_pow_of_lt (by omega)
      rw [← two_zpow_natCast_add] at hv
      have := (hexp _ _).mp (hL.trans_lt hv)
      push_cast at this
      omega

namespace InRoundingInterval

variable {mF : ℕ} {eF : ℤ} {v : ℚ}

/-- Read in units of the float's last bit, a value of its interval is nearest to the float's
mantissa; at an end of the interval, which it reaches only for an even mantissa, it is a tie
that goes to the mantissa. -/
theorem nearestEven (h : InRoundingInterval mF eF v) : NearestEven (v / 2 ^ eF) mF := by
  have hp : (0 : ℚ) < 2 ^ eF := zpow_pos two_pos eF
  have hg := halfGapBelow_le mF eF
  have hlo : (mF : ℚ) - halfGapBelow mF eF ≤ v / 2 ^ eF := (le_div_iff₀ hp).mpr h.lower
  have hhi : v / 2 ^ eF ≤ mF + 1 / 2 := (div_le_iff₀ hp).mpr h.upper
  by_cases hlt : |v / 2 ^ eF - mF| < 1 / 2
  · exact Or.inl hlt
  · right
    have hle : |v / 2 ^ eF - mF| ≤ 1 / 2 := abs_le.mpr ⟨by linarith, by linarith⟩
    have heq : |v / 2 ^ eF - mF| = 1 / 2 := le_antisymm hle (not_lt.mp hlt)
    refine ⟨heq, ?_⟩
    rcases abs_eq (by norm_num : (0 : ℚ) ≤ 1 / 2) |>.mp heq with hup | hdown
    · -- the upper end
      apply h.upper_even
      rw [← div_eq_iff hp.ne']
      linarith
    · -- the lower end, which lies half a step below only where the gap below is a full step
      have hgap : halfGapBelow mF eF = 1 / 2 := by linarith
      apply h.lower_even
      rw [hgap, ← div_eq_iff hp.ne']
      linarith

/-- A value of the interval of `2^52 * 2^eF` below that power of two, read one place lower,
is nearest to `2^53`, a tie at the lower end going to it as the even neighbour. -/
theorem nearestEven_carry (h : InRoundingInterval (2 ^ 52) eF v) (hmin : -1074 < eF)
    (hv : v < 2 ^ 52 * 2 ^ eF) : NearestEven (v / 2 ^ (eF - 1)) (2 ^ 53) := by
  have hp : (0 : ℚ) < 2 ^ eF := zpow_pos two_pos eF
  have hgap : halfGapBelow (2 ^ 52) eF = 1 / 4 := by simp [halfGapBelow, hmin]
  have hlow := h.lower
  rw [hgap] at hlow
  push_cast at hlow
  have hhalf : v / 2 ^ (eF - 1) = 2 * (v / 2 ^ eF) := by
    rw [zpow_sub₀ two_ne_zero, zpow_one]
    field_simp
  have hlo : (2 : ℚ) ^ 52 - 1 / 4 ≤ v / 2 ^ eF := (le_div_iff₀ hp).mpr hlow
  have hhi : v / 2 ^ eF < 2 ^ 52 := (div_lt_iff₀ hp).mpr hv
  rw [hhalf]
  push_cast
  by_cases hlt : |2 * (v / 2 ^ eF) - 2 ^ 53| < 1 / 2
  · exact Or.inl hlt
  · right
    refine ⟨le_antisymm (abs_le.mpr ⟨by linarith, by linarith⟩) (not_lt.mp hlt), by norm_num⟩

end InRoundingInterval

@[simp]
theorem mantissa_ofMantissaAndAccuracy (M : ℕ) (acc : Accuracy) :
    (ExtendedMantissa.ofMantissaAndAccuracy M acc).mantissa = M := by
  unfold ExtendedMantissa.ofMantissaAndAccuracy
  split <;> rfl

/-- Rounding any value of the rounding interval of a finite float gives that float, when the
value is given with enough bits: a mantissa of at least 53 bits, or an exponent no more than
the least. -/
theorem roundWithAccuracy_eq {s : Sign} {M : ℕ} {E : ℤ} {acc : Accuracy} {v : ℚ} {mF : ℕ}
    {eF : ℤ} (hc : Canonical mF eF) (hin : InRoundingInterval mF eF v)
    (happrox : Approximates (ExtendedMantissa.ofMantissaAndAccuracy M acc) (v / 2 ^ E))
    (hbits : 52 ≤ M.log2 ∨ E ≤ -1074) :
    roundWithAccuracy .binary64 s M E acc = .finite s mF eF hc.pos := by
  have hpE : (0 : ℚ) < 2 ^ E := zpow_pos two_pos E
  have hlo : M * 2 ^ E ≤ v := by
    have := happrox.1
    rwa [mantissa_ofMantissaAndAccuracy, le_div_iff₀ hpE] at this
  have hhi : v < (M + 1) * 2 ^ E := by
    have := happrox.2.1
    rwa [mantissa_ofMantissaAndAccuracy, div_lt_iff₀ hpE] at this
  set T := max ((M.log2 : ℤ) + E - 52) (-1074) with hT
  have hET : E + ((T - E).toNat : ℤ) = T := by omega
  have hfirst : shiftToTargetExponent .binary64 M E acc =
      (ExtendedMantissa.ofMantissaAndAccuracy M acc >>> (T - E).toNat, T) := by
    rw [shiftToTargetExponent_eq, hET]
  have hshift := approximates_shiftRight happrox (T - E).toNat
  rw [div_div, ← zpow_natCast, ← zpow_add₀ two_ne_zero, hET] at hshift
  refine roundWithAccuracy_eq_of_rounded hc.pos hfirst ?_
  rcases target_cases hc hin hlo hhi hbits with hTe | ⟨hm, hTe, hv⟩
  · have hne : NearestEven (v / 2 ^ T) mF := by
      rw [show T = eF from hTe]
      exact hin.nearestEven
    exact Or.inl ⟨roundedMantissa_eq hshift hne, hTe, hc.lt, hc.least⟩
  · subst hm
    have hmin : -1074 < eF := by omega
    have hne : NearestEven (v / 2 ^ T) (2 ^ 53) := by
      rw [show T = eF - 1 by omega]
      exact hin.nearestEven_carry hmin hv
    exact Or.inr ⟨roundedMantissa_eq hshift hne, hTe, rfl, le_max_right _ _⟩

end Decimation
