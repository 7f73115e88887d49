import Mathlib
import Decimation.Proofs.NearestFloat
import Decimation.Word
/-!
# Arithmetic on positive floats

A float operation unpacks its operands into mantissas and exponents, computes on them, rounds,
and packs the result. For finite positive operands this is read here as arithmetic on
rationals: `PosValue x v` says that `x` is a finite positive float of value `v`, and the sum,
difference, product and quotient of two such floats is the float nearest to the exact result
(`PosValue.add`, `PosValue.sub`, `PosValue.mul`, `PosValue.div`, each given a `RoundsTo`).
Natural numbers below `2^53` convert exactly (`posValue_ofNat`), and the 64-bit integer part
of a positive float below `2^63` is the floor of its value (`truncToInt64_of_posValue`).

Unpacking the packed form of a value the model keeps gives it back (`unpack_pack_finite`)
while its exponent fits; past the greatest exponent the packed form is an infinity
(`unpack_pack_overflow`).
-/

namespace Decimation

open Float.Model Float.Model.UnpackedFloat

/-! ## Packing and unpacking -/

theorem unpackSign_packComponents (s : Sign) (E : BitVec Format.binary64.exponentBits)
    (M : BitVec Format.binary64.mantissaBitsWithoutImplicit) :
    Sign.ofBitVec (unpackSign (packComponents .binary64 s E M)) = s := by
  have : unpackSign (packComponents .binary64 s E M) = s.toBitVec := by
    ext i hi
    obtain rfl : i = 0 := by omega
    simp only [unpackSign, packComponents]
    grind
  rw [this]
  cases s <;> rfl

/-- A finite value in the form the model keeps, with an exponent that fits, unpacks from its
packed bits unchanged. -/
theorem unpack_pack_finite (s : Sign) {m : ℕ} {e : ℤ} (hc : Canonical m e) (he : e ≤ 971) :
    UnpackedFloat.unpack .binary64 (UnpackedFloat.pack .binary64 (.finite s m e hc.pos)) =
      .finite s m e hc.pos := by
  have hlt : m < Nat.pow 2 53 := hc.lt
  have hleast := hc.least
  by_cases hn : 2 ^ 52 ≤ m
  · -- a normal: the exponent field is `e + 1075`, neither all ones nor zero
    rw [pack_normal s m e hc.pos hn hlt (by omega) (by omega)]
    have hE : (BitVec.ofNat 11 (e + 1075).toNat).toNat = (e + 1075).toNat := by
      rw [BitVec.toNat_ofNat]
      omega
    have hne1 : BitVec.ofNat 11 (e + 1075).toNat ≠ -1#11 := fun h => by
      have := congrArg BitVec.toNat h
      rw [hE] at this
      simp at this
      omega
    have hne0 : BitVec.ofNat 11 (e + 1075).toNat ≠ 0#11 := fun h => by
      have := congrArg BitVec.toNat h
      rw [hE] at this
      simp at this
      omega
    have hM : (1#1 ++ BitVec.ofNat 52 m).toNat = m := by
      rw [BitVec.toNat_append, ← Nat.shiftLeft_add_eq_or_of_lt (BitVec.ofNat 52 m).isLt,
        BitVec.toNat_ofNat]
      simp only [Nat.pow_eq] at hlt
      simp [Nat.shiftLeft_eq]
      omega
    unfold UnpackedFloat.unpack
    simp only [unpackMantissa_packComponents, unpackExponent_packComponents,
      unpackSign_packComponents]
    rw [if_neg hne1, if_neg hne0]
    congr 1
    rw [hE, exponentBias_binary64]
    omega
  · -- a subnormal: the exponent field is zero
    have hsub : m < Nat.pow 2 52 := by simp only [Nat.pow_eq]; omega
    obtain rfl : e = -1074 := hc.normal.resolve_left hn
    rw [pack_subnormal s m hc.pos hsub]
    have hM : (BitVec.ofNat 52 m).toNat = m := by
      rw [BitVec.toNat_ofNat]
      simp only [Nat.pow_eq] at hsub
      omega
    have hne : BitVec.ofNat 52 m ≠ 0#52 := fun h => by
      have h0 := congrArg BitVec.toNat h
      rw [hM] at h0
      have := hc.pos
      simp at h0
      omega
    unfold UnpackedFloat.unpack
    simp only [unpackMantissa_packComponents, unpackExponent_packComponents,
      unpackSign_packComponents]
    simp only [show (0#11 : BitVec 11) ≠ -1#11 by decide, ↓reduceIte, hne, ↓reduceDIte]
    congr 1

/-- A value whose exponent is past the greatest packs as an infinity of its sign. -/
theorem unpack_pack_overflow (s : Sign) {m : ℕ} {e : ℤ} (hm : 0 < m) (he : 972 ≤ e) :
    UnpackedFloat.unpack .binary64 (UnpackedFloat.pack .binary64 (.finite s m e hm)) =
      .infinity s := by
  have hbe := biasedExponent_binary64 e
  have h2048 : 2 ^ Format.binary64.exponentBits = 2048 := rfl
  rw [UnpackedFloat.pack]
  simp only [hbe]
  rw [if_pos (by rw [h2048]; omega), packedInfinity]
  unfold UnpackedFloat.unpack
  simp only [unpackMantissa_packComponents, unpackExponent_packComponents,
    unpackSign_packComponents, ↓reduceIte]
  rfl

/-- How a word that unpacks to a finite value holds it: a subnormal has a zero exponent field
and its mantissa field at the least exponent, a normal an exponent field neither zero nor all
ones and its mantissa field with the leading bit added, at the field less `1075`. -/
theorem fields_of_unpack_eq {b : BitVec Format.binary64.numBits} {s : Sign} {m : ℕ} {e : ℤ}
    {hm : 0 < m} (hu : UnpackedFloat.unpack .binary64 b = .finite s m e hm) :
    s = Sign.ofBitVec (unpackSign b) ∧
      ((unpackExponent b).toNat = 0 ∧ m = (unpackMantissa b).toNat ∧ e = -1074 ∨
        0 < (unpackExponent b).toNat ∧ (unpackExponent b).toNat < 2047 ∧
          m = 2 ^ 52 + (unpackMantissa b).toNat ∧ e = (unpackExponent b).toNat - 1075) := by
  have helt : (unpackExponent b).toNat < 2048 := (unpackExponent b).isLt
  unfold UnpackedFloat.unpack at hu
  dsimp only at hu
  split at hu
  · split at hu <;> cases hu
  · rename_i hall
    split at hu
    · rename_i hzero
      split at hu
      · cases hu
      · -- a subnormal
        cases hu
        have he0 : (unpackExponent b).toNat = 0 := by rw [hzero]; rfl
        rw [he0, exponentBias_binary64]
        exact ⟨rfl, .inl ⟨rfl, rfl, by omega⟩⟩
    · rename_i hzero
      -- a normal: the mantissa gains its leading bit
      cases hu
      have hne1 : (unpackExponent b).toNat ≠ 2047 := fun h =>
        hall (BitVec.eq_of_toNat_eq (by rw [h]; rfl))
      have hne0 : (unpackExponent b).toNat ≠ 0 := fun h =>
        hzero (BitVec.eq_of_toNat_eq (by rw [h]; rfl))
      rw [toNat_leadingBit_append, exponentBias_binary64]
      exact ⟨rfl, .inr ⟨by omega, by omega, rfl, by omega⟩⟩

/-- A word that unpacks to a finite value holds it in the form the model keeps, with an
exponent no greater than the greatest. -/
theorem canonical_of_unpack_eq {b : BitVec Format.binary64.numBits} {s : Sign} {m : ℕ} {e : ℤ}
    {hm : 0 < m} (hu : UnpackedFloat.unpack .binary64 b = .finite s m e hm) :
    Canonical m e ∧ e ≤ 971 := by
  have hmlt : (unpackMantissa b).toNat < Nat.pow 2 52 := (unpackMantissa b).isLt
  simp only [Nat.pow_eq] at hmlt
  rcases (fields_of_unpack_eq hu).2 with ⟨-, rfl, rfl⟩ | ⟨h0, h1, rfl, rfl⟩
  · exact ⟨⟨hm, by omega, le_rfl, .inr rfl⟩, by omega⟩
  · exact ⟨⟨hm, by omega, by omega, .inl (by omega)⟩, by omega⟩

/-- Rounding a mantissa and exponent whose value lies in the rounding interval of a float
gives that float: the exponent is first lowered to the target, which adds bits without changing
the value, and then rounded. -/
theorem round_eq {s : Sign} {M : ℕ} {E : ℤ} {mF : ℕ} {eF : ℤ} (hc : Canonical mF eF)
    (hin : InRoundingInterval mF eF (M * 2 ^ E)) :
    UnpackedFloat.round .binary64 s M E = .finite s mF eF hc.pos := by
  have hM : 0 < M := by
    have h := hin.half_le hc
    rcases Nat.eq_zero_or_pos M with rfl | hM
    · have : (0 : ℚ) < 2 ^ eF / 2 := by positivity
      simp at h
      linarith
    · exact hM
  unfold UnpackedFloat.round decreaseExponent
  rw [targetExponent_binary64]
  dsimp only
  set T := max ((M.log2 : ℤ) + E - 52) (-1074)
  set d := (E - T).toNat
  have hvalue : (M : ℚ) * 2 ^ E / 2 ^ (E - (d : ℤ)) = ((M <<< d : ℕ) : ℚ) := by
    rw [Nat.shiftLeft_eq, zpow_sub₀ two_ne_zero, zpow_natCast]
    push_cast
    field_simp
  refine roundWithAccuracy_eq hc hin (by rw [hvalue]; exact approximates_exact _) ?_
  -- the lowered exponent reaches the target, or the mantissa already had 53 bits
  by_cases hT : -1074 < (M.log2 : ℤ) + E - 52
  · left
    have hd : 52 ≤ M.log2 + d := by omega
    rw [Nat.le_log2 (by rw [Nat.shiftLeft_eq]; positivity), Nat.shiftLeft_eq]
    calc 2 ^ 52 ≤ 2 ^ (M.log2 + d) := Nat.pow_le_pow_right two_pos hd
      _ = 2 ^ M.log2 * 2 ^ d := Nat.pow_add _ _ _
      _ ≤ M * 2 ^ d := Nat.mul_le_mul_right _ (Nat.log2_self_le hM.ne')
  · right
    omega

/-! ## Positive floats -/

/-- `x` is a finite positive float of value `v`. -/
def PosValue (x : Float) (v : ℚ) : Prop :=
  ∃ m e h, x.toModel.unpack = .finite .positive m e h ∧ v = m * 2 ^ e

/-- A float whose model is the packed form of a positive float in the form the model keeps
has that float's value. -/
theorem posValue_of_toModel_eq {x : Float} {u : UnpackedFloat} {m : ℕ} {e : ℤ}
    (hx : x.toModel = Float.Model.pack u) (hc : Canonical m e) (he : e ≤ 971)
    (hu : u = .finite .positive m e hc.pos) : PosValue x (m * 2 ^ e) := by
  refine ⟨m, e, hc.pos, ?_, rfl⟩
  rw [hx, hu]
  exact unpack_pack_finite .positive hc he

namespace PosValue

variable {x : Float} {v : ℚ}

theorem pos (h : PosValue x v) : 0 < v := by
  obtain ⟨m, e, hm, -, rfl⟩ := h
  have : (0 : ℚ) < m := by exact_mod_cast hm
  positivity

/-- The mantissa and exponent of a positive float are in the form the model keeps. -/
theorem canonical {m : ℕ} {e : ℤ} {hm : 0 < m} (hu : x.toModel.unpack = .finite .positive m e hm) :
    Canonical m e ∧ e ≤ 971 :=
  canonical_of_unpack_eq hu

end PosValue

/-! ## Products -/

/-- The product of two mantissas in the form the model keeps has enough bits to be rounded at
once: 53 when either factor is normal, else an exponent below the least. -/
theorem mul_bits {ma mb : ℕ} {ea eb : ℤ} (ha : Canonical ma ea) (hb : Canonical mb eb) :
    52 ≤ (ma * mb).log2 ∨ ea + eb ≤ -1074 := by
  have hne : ma * mb ≠ 0 := Nat.mul_ne_zero ha.pos.ne' hb.pos.ne'
  rcases ha.normal with ha' | ha'
  · exact .inl ((Nat.le_log2 hne).mpr (ha'.trans (Nat.le_mul_of_pos_right _ hb.pos)))
  · rcases hb.normal with hb' | hb'
    · exact .inl ((Nat.le_log2 hne).mpr (hb'.trans (Nat.le_mul_of_pos_left _ ha.pos)))
    · exact .inr (by omega)

/-- The product of finite positive values, in any form, is the float whose rounding interval holds
the exact product, once the product of the mantissas has 53 bits or its exponent is below the
least. -/
theorem mul_finite_eq {ma mb : ℕ} {ea eb : ℤ} (hma : 0 < ma) (hmb : 0 < mb) {mF : ℕ} {eF : ℤ}
    (hc : Canonical mF eF) (hin : InRoundingInterval mF eF (ma * 2 ^ ea * (mb * 2 ^ eb)))
    (hbits : 52 ≤ (ma * mb).log2 ∨ ea + eb ≤ -1074) :
    UnpackedFloat.mul .binary64 (.finite .positive ma ea hma) (.finite .positive mb eb hmb) =
      .finite .positive mF eF hc.pos := by
  have hval : (ma : ℚ) * 2 ^ ea * (mb * 2 ^ eb) = ((ma * mb : ℕ) : ℚ) * 2 ^ (ea + eb) := by
    rw [zpow_add₀ two_ne_zero]
    push_cast
    ring
  rw [hval] at hin
  show roundWithAccuracy .binary64 .positive (ma * mb) (ea + eb) .exact = _
  refine roundWithAccuracy_eq hc hin ?_ hbits
  rw [mul_div_cancel_right₀ _ (zpow_pos two_pos _).ne']
  exact approximates_exact _

/-- The product of positive floats is the float nearest to the exact product. -/
theorem PosValue.mul {a b : Float} {x y z : ℚ} (ha : PosValue a x) (hb : PosValue b y)
    (h : RoundsTo (x * y) z) : PosValue (a * b) z := by
  obtain ⟨ma, ea, hma, hua, rfl⟩ := ha
  obtain ⟨mb, eb, hmb, hub, rfl⟩ := hb
  obtain ⟨mF, eF, hc, he, hin, rfl⟩ := h
  have hbits := mul_bits (PosValue.canonical hua).1 (PosValue.canonical hub).1
  refine posValue_of_toModel_eq (u := UnpackedFloat.mul .binary64 (.finite .positive ma ea hma)
    (.finite .positive mb eb hmb)) ?_ hc he (mul_finite_eq hma hmb hc hin hbits)
  show Float.Model.pack (UnpackedFloat.mul .binary64 a.toModel.unpack b.toModel.unpack) = _
  rw [hua, hub]

/-! ## Sums and differences -/

/-- Lowering the exponent to `t` keeps the value. -/
theorem decreaseExponent_value (m : ℕ) {e t : ℤ} (ht : t ≤ e) :
    ((decreaseExponent m e t).1 : ℚ) * 2 ^ t = m * 2 ^ e := by
  unfold decreaseExponent
  dsimp only
  rw [Nat.shiftLeft_eq]
  push_cast
  rw [← zpow_natCast, Int.toNat_of_nonneg (by omega), mul_assoc, ← zpow_add₀ two_ne_zero]
  congr 2
  omega

/-- A positive mantissa is rounded as it is. -/
theorem normalize_of_pos {M : ℤ} (hM : 0 < M) (E : ℤ) (zs : Sign) :
    UnpackedFloat.normalize .binary64 M E zs = UnpackedFloat.round .binary64 .positive M.toNat E := by
  unfold UnpackedFloat.normalize
  rw [show compare M 0 = .gt from compare_gt_iff_gt.mpr hM]

/-- The sum of positive floats is the float nearest to the exact sum. -/
theorem PosValue.add {a b : Float} {x y z : ℚ} (ha : PosValue a x) (hb : PosValue b y)
    (h : RoundsTo (x + y) z) : PosValue (a + b) z := by
  obtain ⟨ma, ea, hma, hua, rfl⟩ := ha
  obtain ⟨mb, eb, hmb, hub, rfl⟩ := hb
  obtain ⟨mF, eF, hc, he, hin, rfl⟩ := h
  set t := min ea eb
  set M := (decreaseExponent ma ea t).1 + (decreaseExponent mb eb t).1
  have hval : (ma : ℚ) * 2 ^ ea + mb * 2 ^ eb = (M : ℚ) * 2 ^ t := by
    rw [← decreaseExponent_value ma (min_le_left ea eb),
      ← decreaseExponent_value mb (min_le_right ea eb)]
    push_cast [M]
    ring
  have hM : 0 < (M : ℤ) := by
    have : 0 < ma * 2 ^ (ea - t).toNat := Nat.mul_pos hma (Nat.two_pow_pos _)
    simp only [M, decreaseExponent, Nat.shiftLeft_eq]
    omega
  rw [hval] at hin
  refine posValue_of_toModel_eq (u := UnpackedFloat.normalize .binary64 (M : ℤ) t .positive) ?_ hc he ?_
  · show Float.Model.pack (UnpackedFloat.add .binary64 a.toModel.unpack b.toModel.unpack) = _
    rw [hua, hub]
    rfl
  · rw [normalize_of_pos hM, Int.toNat_natCast]
    exact round_eq hc hin

/-- The difference of positive floats, the first the larger, is the float nearest to the exact
difference. -/
theorem PosValue.sub {a b : Float} {x y z : ℚ} (ha : PosValue a x) (hb : PosValue b y)
    (hxy : y < x) (h : RoundsTo (x - y) z) : PosValue (a - b) z := by
  obtain ⟨ma, ea, hma, hua, rfl⟩ := ha
  obtain ⟨mb, eb, hmb, hub, rfl⟩ := hb
  obtain ⟨mF, eF, hc, he, hin, rfl⟩ := h
  set t := min ea eb
  set Ma := (decreaseExponent ma ea t).1
  set Mb := (decreaseExponent mb eb t).1
  have hva : (Ma : ℚ) * 2 ^ t = ma * 2 ^ ea := decreaseExponent_value ma (min_le_left ea eb)
  have hvb : (Mb : ℚ) * 2 ^ t = mb * 2 ^ eb := decreaseExponent_value mb (min_le_right ea eb)
  have hlt : Mb < Ma := by
    have : (Mb : ℚ) * 2 ^ t < Ma * 2 ^ t := by rw [hva, hvb]; exact hxy
    exact_mod_cast lt_of_mul_lt_mul_right this (zpow_pos two_pos t).le
  have hval : (ma : ℚ) * 2 ^ ea - mb * 2 ^ eb = ((Ma - Mb : ℕ) : ℚ) * 2 ^ t := by
    rw [← hva, ← hvb, Nat.cast_sub hlt.le]
    ring
  rw [hval] at hin
  refine posValue_of_toModel_eq (u := UnpackedFloat.normalize .binary64 ((Ma : ℤ) - Mb) t .positive) ?_ hc he ?_
  · show Float.Model.pack (UnpackedFloat.sub .binary64 a.toModel.unpack b.toModel.unpack) = _
    rw [hua, hub]
    rfl
  · rw [normalize_of_pos (by omega), show ((Ma : ℤ) - Mb).toNat = Ma - Mb by omega]
    exact round_eq hc hin

/-! ## Quotients -/

/-- The exponent a quotient is computed at: that of its last mantissa bit, but never above the
difference of the exponents and never below the least. -/
theorem divCore_exponent (m₁ m₂ : ℕ) (e₁ e₂ : ℤ) :
    (divCore .binary64 m₁ e₁ m₂ e₂).2.1 =
      min (e₁ - e₂) (max ((m₁.log2 : ℤ) - m₂.log2 + e₁ - e₂ - 53) (-1074)) := by
  simp only [divCore, Format.targetExponent, totalExponent, Format.mantissaBits,
    Format.minExponent]
  norm_num
  omega

/-- The quotient of finite positive values, in any form, is the float whose rounding interval
holds the exact quotient. -/
theorem div_finite_eq {ma mb : ℕ} {ea eb : ℤ} (hma : 0 < ma) (hmb : 0 < mb) {mF : ℕ} {eF : ℤ}
    (hc : Canonical mF eF) (hin : InRoundingInterval mF eF (ma * 2 ^ ea / (mb * 2 ^ eb))) :
    UnpackedFloat.div .binary64 (.finite .positive ma ea hma) (.finite .positive mb eb hmb) =
      .finite .positive mF eF hc.pos := by
  set T := (divCore .binary64 ma ea mb eb).2.1 with hT
  rw [divCore_exponent] at hT
  set k := (ea - eb - T).toNat
  set N := ma <<< k
  have hk : (k : ℤ) = ea - eb - T := Int.toNat_of_nonneg (by omega)
  -- the quotient read at `2^T` is the whole part `N / mb` and the fraction `N % mb / mb`
  have hval : (ma : ℚ) * 2 ^ ea / (mb * 2 ^ eb) / 2 ^ T =
      (N / mb : ℕ) + ((N % mb : ℕ) : ℚ) / mb := by
    have hN : (N : ℚ) = (mb : ℚ) * (N / mb : ℕ) + (N % mb : ℕ) := by
      exact_mod_cast (Nat.div_add_mod N mb).symm
    have hmb : (0 : ℚ) < mb := by exact_mod_cast hmb
    have hNk : (N : ℚ) = ma * 2 ^ (ea - eb - T) := by
      rw [← hk, zpow_natCast]
      simp only [N, Nat.shiftLeft_eq]
      push_cast
      ring
    calc (ma : ℚ) * 2 ^ ea / (mb * 2 ^ eb) / 2 ^ T = ma * 2 ^ (ea - eb - T) / mb := by
          rw [zpow_sub₀ two_ne_zero, zpow_sub₀ two_ne_zero]
          field_simp
      _ = (N / mb : ℕ) + ((N % mb : ℕ) : ℚ) / mb := by
          rw [← hNk, hN]
          field_simp
  have happrox := approximates_accuracyOfFraction (N / mb) (Nat.mod_lt N hmb)
  rw [← hval] at happrox
  -- below the least exponent, or the shift leaves the dividend `2^52` times the divisor at
  -- least, or the dividend was that large already
  have hbits : 52 ≤ (N / mb).log2 ∨ T ≤ -1074 := by
    by_cases hTl : T ≤ -1074
    · exact .inr hTl
    · left
      have hN : 2 ^ 52 * mb ≤ N := by
        have hmb2 : 2 ^ 52 * mb ≤ 2 ^ 52 * 2 ^ (mb.log2 + 1) :=
          Nat.mul_le_mul_left _ Nat.lt_log2_self.le
        have hma2 : 2 ^ ma.log2 * 2 ^ k ≤ N :=
          (Nat.mul_le_mul_right _ (Nat.log2_self_le hma.ne')).trans_eq (Nat.shiftLeft_eq ma k).symm
        have hpow : 2 ^ 52 * 2 ^ (mb.log2 + 1) ≤ 2 ^ ma.log2 * 2 ^ k := by
          rw [← Nat.pow_add, ← Nat.pow_add]
          exact Nat.pow_le_pow_right two_pos (by omega)
        omega
      have hq : 2 ^ 52 ≤ N / mb := (Nat.le_div_iff_mul_le hmb).mpr (Nat.mul_comm mb _ ▸ hN)
      exact (Nat.le_log2 (by omega)).mpr hq
  exact roundWithAccuracy_eq hc hin happrox hbits

/-- The quotient of positive floats is the float nearest to the exact quotient. -/
theorem PosValue.div {a b : Float} {x y z : ℚ} (ha : PosValue a x) (hb : PosValue b y)
    (h : RoundsTo (x / y) z) : PosValue (a / b) z := by
  obtain ⟨ma, ea, hma, hua, rfl⟩ := ha
  obtain ⟨mb, eb, hmb, hub, rfl⟩ := hb
  obtain ⟨mF, eF, hc, he, hin, rfl⟩ := h
  refine posValue_of_toModel_eq (u := UnpackedFloat.div .binary64 (.finite .positive ma ea hma)
    (.finite .positive mb eb hmb)) ?_ hc he (div_finite_eq hma hmb hc hin)
  show Float.Model.pack (UnpackedFloat.div .binary64 a.toModel.unpack b.toModel.unpack) = _
  rw [hua, hub]

/-! ## Natural numbers -/

/-- A positive natural number below `2^53` is a float: its bits shifted up to 53. -/
theorem exists_canonical_natCast {i : ℕ} (h1 : 0 < i) (h2 : i < 2 ^ 53) :
    ∃ m e, Canonical m e ∧ e ≤ 0 ∧ (i : ℚ) = m * 2 ^ e := by
  set l := i.log2
  have hl : l < 53 := (Nat.log2_lt h1.ne').mpr h2
  have hshift : 2 ^ l * 2 ^ (52 - l) = 2 ^ 52 := by rw [← Nat.pow_add]; congr 1; omega
  refine ⟨i * 2 ^ (52 - l), (l : ℤ) - 52, ⟨by positivity, ?_, by omega, .inl ?_⟩, by omega, ?_⟩
  · calc i * 2 ^ (52 - l) < 2 ^ (l + 1) * 2 ^ (52 - l) :=
          Nat.mul_lt_mul_of_pos_right Nat.lt_log2_self (by positivity)
      _ = 2 ^ 53 := by rw [← Nat.pow_add]; congr 1; omega
  · calc 2 ^ 52 = 2 ^ l * 2 ^ (52 - l) := hshift.symm
      _ ≤ i * 2 ^ (52 - l) := Nat.mul_le_mul_right _ (Nat.log2_self_le h1.ne')
  · push_cast
    rw [mul_assoc, ← zpow_natCast, ← zpow_add₀ two_ne_zero, Nat.cast_sub (by omega)]
    simp

/-- A positive natural number below `2^53` rounds to itself. -/
theorem roundsTo_natCast {i : ℕ} (h1 : 0 < i) (h2 : i < 2 ^ 53) : RoundsTo i i := by
  obtain ⟨m, e, hc, he, hi⟩ := exists_canonical_natCast h1 h2
  rw [hi]
  exact roundsTo_self hc (by omega)

/-- The conversion of a 64-bit word below `2^53` to a float is exact. -/
theorem posValue_toFloat {i : ℕ} (h1 : 0 < i) (h2 : i < 2 ^ 53) :
    PosValue i.toUInt64.toFloat i := by
  obtain ⟨m, e, hc, he, hi⟩ := exists_canonical_natCast h1 h2
  have hmodel : i.toUInt64.toFloat.toModel = Float.Model.pack
      (UnpackedFloat.normalize .binary64 (i.toUInt64.toNat : ℤ) 0 .positive) := rfl
  have htoNat : i.toUInt64.toNat = i := by
    rw [Nat.toUInt64_eq, UInt64.toNat_ofNat']
    exact Nat.mod_eq_of_lt (by omega)
  rw [htoNat] at hmodel
  rw [hi]
  refine posValue_of_toModel_eq hmodel hc (by omega) ?_
  rw [normalize_of_pos (by omega), Int.toNat_natCast]
  exact round_eq hc (by rw [zpow_zero, mul_one, hi]; exact .self)

/-- One, as the float literal `1.0` is stored. -/
theorem posValue_one_bits : PosValue (Float.ofBits 0x3FF0000000000000) 1 :=
  ⟨2 ^ 52, -52, by norm_num, rfl, by norm_num⟩

/-- A positive natural number below `2^53` converts to the float of its value. -/
theorem posValue_ofNat {i : ℕ} (h1 : 0 < i) (h2 : i < 2 ^ 53) : PosValue (Float.ofNat i) i := by
  have hfast : Float.ofNat i = i.toUInt64.toFloat * Float.ofBits 0x3FF0000000000000 := by
    simp only [Float.ofNat, OfScientific.ofScientific, Float.ofScientific]
    rw [dif_pos ⟨h2, by norm_num⟩, if_neg (by decide)]
    rfl
  rw [hfast]
  refine (posValue_toFloat h1 h2).mul posValue_one_bits ?_
  rw [mul_one]
  exact roundsTo_natCast h1 h2

/-! ## Integer parts -/

theorem exponentField_eq (b : UInt64) :
    ((b >>> 52) &&& 0x7FF).toNat = (@unpackExponent Format.binary64 b.toBitVec).toNat := by
  simp [unpackExponent, UInt64.toNat_shiftRight, UInt64.toNat_and]
  exact Nat.and_two_pow_sub_one_eq_mod _ 11

theorem mantissaField_eq (b : UInt64) :
    (b &&& 0xFFFFFFFFFFFFF).toNat = (@unpackMantissa Format.binary64 b.toBitVec).toNat := by
  simp [unpackMantissa, UInt64.toNat_and]
  exact Nat.and_two_pow_sub_one_eq_mod _ 52

/-- The magnitude read straight from the bits of a finite float is its unpacked mantissa and
exponent. -/
theorem ofBits_of_unpack_eq {b : UInt64} {s : Sign} {m : ℕ} {e : ℤ} {hm : 0 < m}
    (hu : UnpackedFloat.unpack .binary64 b.toBitVec = .finite s m e hm) :
    (Binary.ofBits b).mantissa = m ∧ (Binary.ofBits b).exponent = e := by
  unfold Binary.ofBits
  rw [exponentField_eq, mantissaField_eq]
  rcases (fields_of_unpack_eq hu).2 with ⟨h0, rfl, rfl⟩ | ⟨h0, -, rfl, rfl⟩
  · simp [h0]
  · simp [h0.ne', Nat.pow_eq]

/-- A positive float has a clear sign bit. -/
theorem signBit_of_unpack_eq {b : UInt64} {m : ℕ} {e : ℤ} {hm : 0 < m}
    (hu : UnpackedFloat.unpack .binary64 b.toBitVec = .finite .positive m e hm) :
    (b >>> 63 == 1) = false := by
  have hs := (fields_of_unpack_eq hu).1
  have hbit : @unpackSign Format.binary64 b.toBitVec = 0#1 := by
    by_contra h
    rw [Sign.ofBitVec, if_neg h] at hs
    cases hs
  have h0 := congrArg BitVec.toNat hbit
  simp [unpackSign] at h0
  have hlt := b.toNat_lt_size
  simp only [beq_eq_false_iff_ne, ne_eq, UInt64.ext_iff, UInt64.toNat_shiftRight]
  simp [UInt64.size] at hlt ⊢
  omega

/-- The 64-bit integer part of a positive float below `2^63` is the floor of its value. -/
theorem truncToInt64_of_posValue {x : Float} {v : ℚ} (h : PosValue x v) (hv : v < 2 ^ 63) :
    (truncToInt64 x).toInt = ⌊v⌋ := by
  obtain ⟨m, e, hm, hu, rfl⟩ := h
  have hfin : (x.isNaN || x.isInf) = false := by
    show (x.toModel.unpack.isNaN || x.toModel.unpack.isInf) = false
    rw [hu]
    rfl
  obtain ⟨hmant, hexp⟩ := ofBits_of_unpack_eq (b := x.toBits) hu
  have hsign := signBit_of_unpack_eq (b := x.toBits) hu
  have hmag : truncToInt x = ⌊(m : ℚ) * 2 ^ e⌋ := by
    unfold truncToInt
    simp only [hmant, hexp, hsign]
    rw [if_neg (by decide)]
    split
    · rename_i he
      have hval : (m : ℚ) * 2 ^ e = ((m * Nat.pow 2 e.toNat : ℕ) : ℚ) := by
        rw [← Int.toNat_of_nonneg he, zpow_natCast, Int.toNat_of_nonneg he, Nat.pow_eq]
        push_cast
        rfl
      rw [hval, Int.floor_natCast]
    · rename_i he
      have hval : (m : ℚ) * 2 ^ e = (m : ℚ) / ((Nat.pow 2 (-e).toNat : ℕ) : ℚ) := by
        rw [Nat.pow_eq, Nat.cast_pow, Nat.cast_ofNat, ← zpow_natCast, Int.toNat_of_nonneg (by omega),
          zpow_neg, div_eq_mul_inv, inv_inv]
      rw [hval, Rat.floor_natCast_div_natCast]
      rfl
  have hfloor0 : 0 ≤ ⌊(m : ℚ) * 2 ^ e⌋ := Int.floor_nonneg.mpr (by positivity)
  have hfloor63 : ⌊(m : ℚ) * 2 ^ e⌋ < 2 ^ 63 := Int.floor_lt.mpr (by exact_mod_cast hv)
  unfold truncToInt64
  rw [hfin, hmag, if_neg (by decide)]
  dsimp only
  rw [if_neg (by simp only [Bool.or_eq_true, decide_eq_true_eq, Nat.pow_eq]; push_cast; omega)]
  rw [Int64.toInt_ofInt, Int.bmod_def]
  have : (Int64.size : ℤ) = 2 ^ 64 := rfl
  rw [this, Int.emod_eq_of_lt hfloor0 (by omega)]
  omega

/-! ## Zeros -/

theorem unpack_pack_zero (s : Sign) : (Float.Model.pack (.zero s)).unpack = .zero s := by
  cases s <;> rfl

/-- `Float.ofNat 0` is the positive zero. -/
theorem ofNat_zero_unpack : (Float.ofNat 0).toModel.unpack = .zero .positive := rfl

theorem zero_unpack : (0 : Float).toModel.unpack = .zero .positive := rfl

/-- A positive zero added to `x` or taken from it leaves `x` as it is, unless `x` is a NaN or a
negative zero. -/
def ZeroNeutral (x : Float) : Prop :=
  x.toModel.unpack ≠ .notANumber ∧ x.toModel.unpack ≠ .zero .negative

/-- A float that a positive zero leaves alone is an infinity, the positive zero, or finite. -/
theorem ZeroNeutral.unpack_cases {x : Float} (h : ZeroNeutral x) :
    (∃ s, x.toModel.unpack = .infinity s) ∨ x.toModel.unpack = .zero .positive ∨
      ∃ s m e hm, x.toModel.unpack = .finite s m e hm := by
  obtain ⟨hn, hz⟩ := h
  cases hu : x.toModel.unpack with
  | notANumber => exact absurd hu hn
  | infinity s => exact .inl ⟨s, rfl⟩
  | zero s => cases s <;> first | exact absurd hu hz | exact .inr (.inl rfl)
  | finite s m e hm => exact .inr (.inr ⟨s, m, e, hm, rfl⟩)

theorem zero_add_eq {a b : Float} (ha : a.toModel.unpack = .zero .positive) (hb : ZeroNeutral b) :
    a + b = b := by
  have hadd : UnpackedFloat.add .binary64 (.zero .positive) b.toModel.unpack = b.toModel.unpack := by
    rcases hb.unpack_cases with ⟨s, hu⟩ | hu | ⟨s, m, e, hm, hu⟩ <;> rw [hu] <;> rfl
  show Float.ofModel (Float.Model.pack
    (UnpackedFloat.add .binary64 a.toModel.unpack b.toModel.unpack)) = b
  rw [ha, hadd, model_pack_unpack]

theorem add_zero_eq {a b : Float} (hb : b.toModel.unpack = .zero .positive) (ha : ZeroNeutral a) :
    a + b = a := by
  have hadd : UnpackedFloat.add .binary64 a.toModel.unpack (.zero .positive) = a.toModel.unpack := by
    rcases ha.unpack_cases with ⟨s, hu⟩ | hu | ⟨s, m, e, hm, hu⟩ <;> rw [hu] <;> rfl
  show Float.ofModel (Float.Model.pack
    (UnpackedFloat.add .binary64 a.toModel.unpack b.toModel.unpack)) = a
  rw [hb, hadd, model_pack_unpack]

theorem sub_zero_eq {a b : Float} (hb : b.toModel.unpack = .zero .positive) (ha : ZeroNeutral a) :
    a - b = a := by
  have hsub : UnpackedFloat.sub .binary64 a.toModel.unpack (.zero .positive) = a.toModel.unpack := by
    rcases ha.unpack_cases with ⟨s, hu⟩ | hu | ⟨s, m, e, hm, hu⟩ <;> rw [hu] <;> rfl
  show Float.ofModel (Float.Model.pack
    (UnpackedFloat.sub .binary64 a.toModel.unpack b.toModel.unpack)) = a
  rw [hb, hsub, model_pack_unpack]

theorem zeroNeutral_of_zero {x : Float} (h : x.toModel.unpack = .zero .positive) :
    ZeroNeutral x := by
  rw [ZeroNeutral, h]
  exact ⟨by simp, by simp⟩

theorem PosValue.zeroNeutral {x : Float} {v : ℚ} (h : PosValue x v) : ZeroNeutral x := by
  obtain ⟨m, e, hm, hu, -⟩ := h
  rw [ZeroNeutral, hu]
  exact ⟨by simp, by simp⟩

/-- A positive zero times a positive float, or the other way round, is a positive zero. -/
theorem zero_mul_posValue {a b : Float} {y : ℚ} (ha : a.toModel.unpack = .zero .positive)
    (hb : PosValue b y) : (a * b).toModel.unpack = .zero .positive := by
  obtain ⟨m, e, hm, hub, -⟩ := hb
  show (Float.Model.pack (UnpackedFloat.mul .binary64 a.toModel.unpack b.toModel.unpack)).unpack = _
  have hz : UnpackedFloat.mul .binary64 (.zero .positive) (.finite .positive m e hm) =
      .zero .positive := rfl
  rw [ha, hub, hz, unpack_pack_zero]

theorem PosValue.mul_zero {a b : Float} {x : ℚ} (ha : PosValue a x)
    (hb : b.toModel.unpack = .zero .positive) : (a * b).toModel.unpack = .zero .positive := by
  obtain ⟨m, e, hm, hua, -⟩ := ha
  show (Float.Model.pack (UnpackedFloat.mul .binary64 a.toModel.unpack b.toModel.unpack)).unpack = _
  have hz : UnpackedFloat.mul .binary64 (.finite .positive m e hm) (.zero .positive) =
      .zero .positive := rfl
  rw [hua, hb, hz, unpack_pack_zero]

theorem zero_mul_zero {a b : Float} (ha : a.toModel.unpack = .zero .positive)
    (hb : b.toModel.unpack = .zero .positive) : (a * b).toModel.unpack = .zero .positive := by
  show (Float.Model.pack (UnpackedFloat.mul .binary64 a.toModel.unpack b.toModel.unpack)).unpack = _
  rw [ha, hb]
  rfl

/-- A positive zero divided by a positive float is a positive zero. -/
theorem zero_div_posValue {a b : Float} {y : ℚ} (ha : a.toModel.unpack = .zero .positive)
    (hb : PosValue b y) : (a / b).toModel.unpack = .zero .positive := by
  obtain ⟨m, e, hm, hub, -⟩ := hb
  show (Float.Model.pack (UnpackedFloat.div .binary64 a.toModel.unpack b.toModel.unpack)).unpack = _
  have hz : UnpackedFloat.div .binary64 (.zero .positive) (.finite .positive m e hm) =
      .zero .positive := rfl
  rw [ha, hub, hz, unpack_pack_zero]

/-! ## Natural numbers with zero -/

/-- `x` is the float of the natural number `a`, the positive zero for `0`. -/
def NatValue (x : Float) (a : ℕ) : Prop :=
  (a = 0 ∧ x.toModel.unpack = .zero .positive) ∨ (0 < a ∧ PosValue x a)

theorem natValue_ofNat {i : ℕ} (h : i < 2 ^ 53) : NatValue (Float.ofNat i) i := by
  rcases Nat.eq_zero_or_pos i with rfl | hi
  · exact .inl ⟨rfl, ofNat_zero_unpack⟩
  · exact .inr ⟨hi, posValue_ofNat hi h⟩

namespace NatValue

variable {x y : Float} {a b : ℕ}

theorem zeroNeutral (h : NatValue x a) : ZeroNeutral x := by
  rcases h with ⟨-, hx⟩ | ⟨-, hx⟩
  · exact zeroNeutral_of_zero hx
  · exact hx.zeroNeutral

/-- Sums of naturals below `2^53` are exact. -/
theorem add (hx : NatValue x a) (hy : NatValue y b) (h : a + b < 2 ^ 53) :
    NatValue (x + y) (a + b) := by
  rcases hx with ⟨rfl, hx⟩ | ⟨ha, hx⟩
  · rw [zero_add_eq hx hy.zeroNeutral, Nat.zero_add]
    exact hy
  · rcases hy with ⟨rfl, hy⟩ | ⟨hb, hy⟩
    · rw [add_zero_eq hy hx.zeroNeutral, Nat.add_zero]
      exact .inr ⟨ha, hx⟩
    · refine .inr ⟨by omega, hx.add hy ?_⟩
      push_cast
      exact_mod_cast roundsTo_natCast (i := a + b) (by omega) h

theorem posValue (h : NatValue x a) (ha : 0 < a) : PosValue x a := by
  rcases h with ⟨rfl, -⟩ | ⟨-, h⟩
  · exact absurd ha (Nat.lt_irrefl 0)
  · exact h

theorem mul_zero (hx : NatValue x a) (hz : y.toModel.unpack = .zero .positive) :
    (x * y).toModel.unpack = .zero .positive := by
  rcases hx with ⟨-, hx⟩ | ⟨-, hx⟩
  · exact zero_mul_zero hx hz
  · exact hx.mul_zero hz

end NatValue

/-! ## Nonzero numbers of a sign -/

/-- `x` is a nonzero number of sign `s`: finite or infinite, never a zero or a NaN. -/
def Signed (x : Float) (s : Sign) : Prop :=
  (∃ m e h, x.toModel.unpack = .finite s m e h) ∨ x.toModel.unpack = .infinity s

namespace Signed

variable {x : Float} {s : Sign}

theorem zeroNeutral (h : Signed x s) : ZeroNeutral x := by
  rcases h with ⟨m, e, hm, hx⟩ | hx <;> rw [ZeroNeutral, hx] <;> exact ⟨by simp, by simp⟩

/-- The absolute value of a nonzero number is positive. -/
theorem abs (h : Signed x s) : Signed x.abs .positive := by
  rcases h with ⟨m, e, hm, hx⟩ | hx
  · obtain ⟨hc, he⟩ := canonical_of_unpack_eq hx
    left
    refine ⟨m, e, hm, ?_⟩
    show (Float.Model.pack x.toModel.unpack.abs).unpack = _
    rw [hx]
    exact unpack_pack_finite .positive hc he
  · right
    have habs : (UnpackedFloat.infinity s).abs = .infinity .positive := rfl
    show (Float.Model.pack x.toModel.unpack.abs).unpack = _
    rw [hx, habs]
    rfl

end Signed

theorem abs_zero_unpack {x : Float} {s : Sign} (hx : x.toModel.unpack = .zero s) :
    x.abs.toModel.unpack = .zero .positive := by
  show (Float.Model.pack x.toModel.unpack.abs).unpack = _
  rw [hx]
  exact unpack_pack_zero .positive

/-- A finite float that does not equal zero is a finite nonzero number. -/
theorem exists_finite_of_isFinite {v : Float} (hv : v.isFinite = true) (hv0 : (v == 0) = false) :
    ∃ s m e hm, v.toModel.unpack = .finite s m e hm := by
  change v.toModel.unpack.isFinite = true at hv
  change v.toModel.unpack.beq (0 : Float).toModel.unpack = false at hv0
  cases hu : v.toModel.unpack with
  | notANumber => rw [hu] at hv; cases hv
  | infinity s => rw [hu] at hv; cases hv
  | zero s =>
    rw [hu, zero_unpack] at hv0
    cases s <;> cases hv0
  | finite s m e hm => exact ⟨s, m, e, hm, rfl⟩

/-- A finite nonzero float times a positive float above one half has the sign of the first:
the exact product lies above half the least subnormal, so it does not round to a zero. -/
theorem signed_mul_posValue {a b : Float} {s : Sign} {m : ℕ} {e : ℤ} {hm : 0 < m} {y : ℚ}
    (ha : a.toModel.unpack = .finite s m e hm) (hb : PosValue b y) (hy : 1 / 2 < y) :
    Signed (a * b) s := by
  obtain ⟨mb, eb, hmb, hub, rfl⟩ := hb
  have hca := (canonical_of_unpack_eq ha).1
  have hcb := (PosValue.canonical hub).1
  have hval : (m : ℚ) * 2 ^ e * (mb * 2 ^ eb) = ((m * mb : ℕ) : ℚ) * 2 ^ (e + eb) := by
    rw [zpow_add₀ two_ne_zero]
    push_cast
    ring
  have hlo : (2 : ℚ) ^ (-1074 : ℤ) ≤ m * 2 ^ e := by
    have h1 : (1 : ℚ) ≤ m := by exact_mod_cast hm
    have h2 : (2 : ℚ) ^ (-1074 : ℤ) ≤ 2 ^ e := zpow_le_zpow_right₀ one_le_two hca.least
    nlinarith [zpow_pos (two_pos : (0 : ℚ) < 2) (-1074 : ℤ)]
  have hv : (2 : ℚ) ^ (-1075 : ℤ) < ((m * mb : ℕ) : ℚ) * 2 ^ (e + eb) := by
    rw [← hval]
    have h2 : (2 : ℚ) ^ (-1075 : ℤ) = 2 ^ (-1074 : ℤ) * (1 / 2) := by
      rw [show (-1075 : ℤ) = -1074 + -1 by norm_num, zpow_add₀ two_ne_zero]
      norm_num
    rw [h2]
    exact mul_lt_mul' hlo hy (by norm_num) (lt_of_lt_of_le (zpow_pos two_pos _) hlo)
  obtain ⟨mF, eF, hc, hin⟩ := exists_inRoundingInterval hv
  have hround : roundWithAccuracy .binary64 s (m * mb) (e + eb) .exact = .finite s mF eF hc.pos := by
    refine roundWithAccuracy_eq hc hin ?_ (mul_bits hca hcb)
    rw [mul_div_cancel_right₀ _ (zpow_pos two_pos _).ne']
    exact approximates_exact _
  have hmul : UnpackedFloat.mul .binary64 (.finite s m e hm) (.finite .positive mb eb hmb) =
      roundWithAccuracy .binary64 s (m * mb) (e + eb) .exact := by
    cases s <;> rfl
  have hab : (a * b).toModel.unpack = (Float.Model.pack (.finite s mF eF hc.pos)).unpack := by
    show (Float.Model.pack (UnpackedFloat.mul .binary64 a.toModel.unpack b.toModel.unpack)).unpack = _
    rw [ha, hub, hmul, hround]
  -- past the greatest exponent the packed product is an infinity of the same sign
  by_cases he : eF ≤ 971
  · exact .inl ⟨mF, eF, hc.pos, hab.trans (unpack_pack_finite s hc he)⟩
  · exact .inr (hab.trans (unpack_pack_overflow s hc.pos (by omega)))

/-! ## Comparisons -/

theorem lt_iff_unpack {a b : Float} :
    a < b ↔ UnpackedFloat.lt a.toModel.unpack b.toModel.unpack = true := by
  show Float.lt a b = true ↔ _
  unfold Float.lt
  exact decide_eq_true_iff

theorem zero_lt_signed {a b : Float} (ha : a.toModel.unpack = .zero .positive)
    (hb : Signed b .positive) : a < b := by
  rw [lt_iff_unpack, ha]
  rcases hb with ⟨m, e, hm, hb⟩ | hb <;> rw [hb] <;> rfl

end Decimation
