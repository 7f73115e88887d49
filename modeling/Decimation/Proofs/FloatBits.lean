import Mathlib
import Decimation.Snapshot.Payload
/-!
# Floats through their bits

A snapshot stores each float as the 64 bits `storedBits` gives and reads it back with
`Float.ofBits`. Every float is a valid binary64 word, in which a NaN has the one canonical
pattern, so reading back the bits of a float gives the float (`ofBits_toBits`), and reading back
the bits a NaN is stored with gives that NaN (`ofBits_storedBits`): no float, `-0` and the
infinities included, changes on its way through a payload.

The proof splits a 64-bit word into its sign, exponent and mantissa fields
(`packComponents_unpack`) and follows `unpack` through the kinds of value it tells apart by the
exponent field: infinities and NaN (all ones), zeros and subnormals (zero), and normals. For
each, packing the unpacked value writes the same three fields back (`pack_unpack_of_valid`).
-/

namespace Decimation

open Float.Model Float.Model.UnpackedFloat

/-! ## Words and their fields -/

theorem toBitVec_ofBitVec (v : BitVec 1) : (Sign.ofBitVec v).toBitVec = v := by
  revert v
  decide

/-- A word is its sign, exponent and mantissa fields put back together. -/
theorem packComponents_unpack (b : BitVec Format.binary64.numBits) :
    packComponents .binary64 (Sign.ofBitVec (unpackSign b)) (unpackExponent b)
      (unpackMantissa b) = b := by
  simp only [packComponents, toBitVec_ofBitVec, unpackSign, unpackExponent, unpackMantissa]
  ext i hi
  grind

theorem exponentBias_binary64 : (Format.binary64.exponentBias : Int) = 1023 := rfl

/-- The exponent field of a finite value is its exponent biased by `1075`. -/
theorem biasedExponent_binary64 (e : Int) :
    (e + Format.binary64.exponentBias + Format.binary64.mantissaBitsWithoutImplicit).toNat =
      (e + 1075).toNat := by
  rw [exponentBias_binary64,
    show ((Format.binary64.mantissaBitsWithoutImplicit : Nat) : Int) = 52 from rfl]
  omega

/-- The mantissa of a normal is its mantissa field with the leading bit put back. -/
theorem toNat_leadingBit_append (m : BitVec Format.binary64.mantissaBitsWithoutImplicit) :
    (1#1 ++ m).toNat = 2 ^ 52 + m.toNat := by
  rw [BitVec.toNat_append, ← Nat.shiftLeft_add_eq_or_of_lt m.isLt]
  simp [Nat.shiftLeft_eq]

/-- A finite value with a mantissa below `2^52` at the least exponent packs as a subnormal. -/
theorem pack_subnormal (s : Sign) (m : Nat) (hm : 0 < m) (hlt : m < Nat.pow 2 52) :
    UnpackedFloat.pack .binary64 (.finite s m (-1074) hm) =
      packComponents .binary64 s 0#_ (BitVec.ofNat _ m) := by
  have hlog : m.log2 < 52 := (Nat.log2_lt (by omega)).mpr hlt
  have hbe : ((-1074 : Int) + Format.binary64.exponentBias +
      Format.binary64.mantissaBitsWithoutImplicit).toNat = 1 := by decide
  rw [UnpackedFloat.pack]
  simp only [hbe]
  rw [if_neg (by decide), if_neg (by simp only [Format.mantissaBits]; omega)]

/-- A finite value with a 53-bit mantissa and an exponent in range packs as a normal, its
exponent field biased by `1075`. -/
theorem pack_normal (s : Sign) (m : Nat) (e : Int) (hm : 0 < m) (hlo : Nat.pow 2 52 ≤ m)
    (hhi : m < Nat.pow 2 53) (helo : 1 ≤ e + 1075) (hehi : e + 1075 ≤ 2046) :
    UnpackedFloat.pack .binary64 (.finite s m e hm) =
      packComponents .binary64 s (BitVec.ofNat _ (e + 1075).toNat) (BitVec.ofNat _ m) := by
  have hlog : m.log2 = 52 := by
    have h1 : 52 ≤ m.log2 := (Nat.le_log2 (by omega)).mpr hlo
    have h2 : m.log2 < 53 := (Nat.log2_lt (by omega)).mpr hhi
    omega
  have hbe := biasedExponent_binary64 e
  rw [UnpackedFloat.pack]
  simp only [hbe]
  have h2048 : 2 ^ Format.binary64.exponentBits = 2048 := rfl
  rw [if_neg (by rw [h2048]; omega), if_pos (by simp only [Format.mantissaBits, hlog])]

/-- Packing the unpacked form of a valid word gives the word back. -/
theorem pack_unpack_of_valid {b : BitVec Format.binary64.numBits}
    (hv : Format.binary64.Valid b) : UnpackedFloat.pack .binary64 (unpack .binary64 b) = b := by
  have hsplit := packComponents_unpack b
  have hmlt : (unpackMantissa b).toNat < Nat.pow 2 52 := (unpackMantissa b).isLt
  have helt : (unpackExponent b).toNat < 2048 := (unpackExponent b).isLt
  dsimp only [UnpackedFloat.unpack]
  -- `unpack` sorts a word by its exponent field: all ones, zero, or in between
  split
  · rename_i hall
    split
    · rename_i hzero
      rw [hall, hzero] at hsplit
      exact hsplit
    · rename_i hnz
      exact (hv.eq_packedNaN hall hnz).symm
  · rename_i hall
    split
    · rename_i hzero
      split
      · rename_i hmz
        rw [hzero, hmz] at hsplit
        exact hsplit
      · rename_i hmz
        -- a subnormal: the value sits at the least exponent
        have he0 : (unpackExponent b).toNat = 0 := by rw [hzero]; rfl
        have he : ((unpackExponent b).toNat : Int) -
            (Format.binary64.exponentBias + ((52 : Nat) : Int)) + 1 = -1074 := by
          rw [he0, exponentBias_binary64]
          rfl
        have hpos : 0 < (unpackMantissa b).toNat :=
          Nat.pos_of_ne_zero fun h => hmz (BitVec.eq_of_toNat_eq (by simpa using h))
        rw [he, pack_subnormal _ _ hpos hmlt, BitVec.ofNat_toNat, BitVec.setWidth_eq, ← hzero]
        exact hsplit
    · rename_i hzero
      -- a normal: the mantissa gains its leading bit, the exponent field is kept
      have hne1 : (unpackExponent b).toNat ≠ 2047 := fun h =>
        hall (BitVec.eq_of_toNat_eq (by rw [h]; rfl))
      have hne0 : (unpackExponent b).toNat ≠ 0 := fun h =>
        hzero (BitVec.eq_of_toNat_eq (by rw [h]; rfl))
      have hm : (1#1 ++ unpackMantissa b).toNat = Nat.pow 2 52 + (unpackMantissa b).toNat :=
        toNat_leadingBit_append _
      have he : ((unpackExponent b).toNat : Int) -
          (Format.binary64.exponentBias + ((52 : Nat) : Int)) + 1075 = (unpackExponent b).toNat := by
        rw [exponentBias_binary64]
        omega
      have hpos : 0 < (1#1 ++ unpackMantissa b).toNat := by omega
      rw [pack_normal _ _ _ hpos (by omega) (by simp only [Nat.pow_eq] at *; omega) (by omega)
        (by omega), he, Int.toNat_natCast, BitVec.ofNat_toNat, BitVec.setWidth_eq]
      have hmant : BitVec.ofNat Format.binary64.mantissaBitsWithoutImplicit
          (1#1 ++ unpackMantissa b).toNat = unpackMantissa b := by
        apply BitVec.eq_of_toNat_eq
        rw [BitVec.toNat_ofNat, hm]
        simp only [Nat.pow_eq] at hmlt ⊢
        omega
      rw [hmant]
      exact hsplit

/-! ## Floats -/

theorem model_pack_unpack (f : Float.Model) : Float.Model.pack f.unpack = f := by
  obtain ⟨bits, hv⟩ := f
  simp only [Float.Model.pack, Float.Model.unpack, pack_unpack_of_valid hv,
    UInt64.ofBitVec_toBitVec]

/-- Reading back the bits of a float gives the float. -/
theorem ofBits_toBits (v : Float) : Float.ofBits v.toBits = v := by
  show Float.ofModel (Float.Model.pack v.toModel.unpack) = v
  rw [model_pack_unpack]

/-- There is one NaN. -/
theorem eq_nan_of_isNaN {v : Float} (h : v.isNaN = true) :
    v = Float.ofModel (Float.Model.pack .notANumber) := by
  have hu : v.toModel.unpack = .notANumber := by
    change v.toModel.unpack.isNaN = true at h
    revert h
    cases v.toModel.unpack <;> simp [UnpackedFloat.isNaN]
  rw [← hu, model_pack_unpack]

/-- Reading back the bits a float is stored with gives the float. -/
theorem ofBits_storedBits (v : Float) : Float.ofBits (storedBits v) = v := by
  unfold storedBits
  split
  · rename_i h
    rw [eq_nan_of_isNaN h]
    rfl
  · exact ofBits_toBits v

end Decimation
