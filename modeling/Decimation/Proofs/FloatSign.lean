import Mathlib
import Decimation.Proofs.FloatText
/-!
# Negation and the sign of zero

Rounding to nearest treats both signs alike, so negating the operands of a sum, a difference, a
product or a quotient negates the result. The sum and the difference keep one exception, an exact
zero, which is `+0` whatever the signs of the operands: `(-a) + (-b)` is `+0` where `a + b` is `+0`
too, not `-0`. The statements therefore hold up to the sign of a zero (`SameModZeroSign`), a
relation that every operation respects in each operand, the divisor of a quotient excepted
(`1 / -0` is `-Inf`), and that the absolute value erases.

The lemmas on unpacked floats come first (`UnpackedFloat.add_neg_neg` and its siblings); packing
the result and unpacking it again commutes with negation (`unpack_pack_neg`), which carries each of
them over to floats.
-/

namespace Decimation

open Float.Model Float.Model.UnpackedFloat

/-! ## Unpacked floats -/

/-- Two unpacked floats are equal, or both are zeros whatever their signs. -/
def EqModZeroSign (u v : UnpackedFloat) : Prop := u = v ∨ ∃ s t, u = .zero s ∧ v = .zero t

namespace EqModZeroSign

variable {u v w : UnpackedFloat}

theorem refl (u : UnpackedFloat) : EqModZeroSign u u := .inl rfl

theorem zeros (s t : Sign) : EqModZeroSign (.zero s) (.zero t) := .inr ⟨s, t, rfl, rfl⟩

theorem symm (h : EqModZeroSign u v) : EqModZeroSign v u := by
  rcases h with rfl | ⟨s, t, rfl, rfl⟩
  · exact refl u
  · exact zeros t s

theorem trans (h₁ : EqModZeroSign u v) (h₂ : EqModZeroSign v w) : EqModZeroSign u w := by
  rcases h₁ with rfl | ⟨s, t, rfl, rfl⟩
  · exact h₂
  · rcases h₂ with rfl | ⟨t', r, ht, rfl⟩
    · exact zeros s t
    · exact zeros s r

theorem neg (h : EqModZeroSign u v) : EqModZeroSign u.neg v.neg := by
  rcases h with rfl | ⟨s, t, rfl, rfl⟩
  · exact refl _
  · exact zeros _ _

theorem abs_eq (h : EqModZeroSign u v) : u.abs = v.abs := by
  rcases h with rfl | ⟨s, t, rfl, rfl⟩ <;> rfl

end EqModZeroSign

namespace Unpacked

variable (spec : Format) (u v : UnpackedFloat)

theorem neg_neg : u.neg.neg = u := by
  rcases u with (_ | _) | _ | (_ | _) | ⟨_ | _, m, e, hm⟩ <;> rfl

theorem abs_neg : u.neg.abs = u.abs := by
  rcases u with (_ | _) | _ | (_ | _) | ⟨_ | _, m, e, hm⟩ <;> rfl

theorem apply_neg (s : Sign) (n : Int) : (-s).apply n = -s.apply n := by
  cases s <;> simp [Sign.apply]

theorem mul_neg_sign (s t : Sign) : s * -t = -(s * t) := by
  cases s <;> cases t <;> rfl

theorem neg_mul_sign (s t : Sign) : -s * t = -(s * t) := by
  cases s <;> cases t <;> rfl

theorem neg_div_sign (s t : Sign) : -s / t = -(s / t) := by
  cases s <;> cases t <;> rfl

/-- Rounding passes its sign through: only the magnitude is rounded. -/
theorem roundWithAccuracy_neg (s : Sign) (m : Nat) (e : Int) (acc : Accuracy) :
    roundWithAccuracy spec (-s) m e acc = (roundWithAccuracy spec s m e acc).neg := by
  unfold roundWithAccuracy
  dsimp only
  split <;> rfl

theorem round_neg (s : Sign) (m : Nat) (e : Int) :
    UnpackedFloat.round spec (-s) m e = (UnpackedFloat.round spec s m e).neg := by
  unfold UnpackedFloat.round
  exact roundWithAccuracy_neg spec s _ _ _

/-- Normalizing the negated mantissa negates the result, unless the mantissa is zero: then the
result is the zero of the sign given, either way. -/
theorem normalize_neg (M E : Int) (zs : Sign) :
    EqModZeroSign (UnpackedFloat.normalize spec (-M) E zs)
      (UnpackedFloat.normalize spec M E zs).neg := by
  unfold UnpackedFloat.normalize
  rcases lt_trichotomy M 0 with hM | rfl | hM
  · have h₁ : compare (-M) 0 = .gt := by simp [Int.compare_eq_gt]; omega
    have h₂ : compare M 0 = .lt := by simp [Int.compare_eq_lt]; omega
    rw [h₁, h₂, Int.neg_neg M, ← round_neg]
    exact .refl _
  · exact .zeros _ _
  · have h₁ : compare (-M) 0 = .lt := by simp [Int.compare_eq_lt]; omega
    have h₂ : compare M 0 = .gt := by simp [Int.compare_eq_gt]; omega
    rw [h₁, h₂]
    show EqModZeroSign (UnpackedFloat.round spec .negative _ E)
      (UnpackedFloat.round spec (-.negative) _ E).neg
    rw [round_neg, Unpacked.neg_neg, Int.neg_neg]
    exact .refl _

theorem add_neg_neg : EqModZeroSign (add spec u.neg v.neg) (add spec u v).neg := by
  rcases u with (_ | _) | _ | (_ | _) | ⟨s, m, e, hm⟩ <;>
  rcases v with (_ | _) | _ | (_ | _) | ⟨t, m', e', hm'⟩
  all_goals first
    | exact .refl _
    | exact .zeros _ _
    | skip
  -- two finite values: the aligned mantissas change sign, and so does their sum
  show EqModZeroSign (UnpackedFloat.normalize spec
      ((-s).apply (decreaseExponent m e (min e e')).1 +
        (-t).apply (decreaseExponent m' e' (min e e')).1) (min e e') .positive)
    (UnpackedFloat.normalize spec
      (s.apply (decreaseExponent m e (min e e')).1 +
        t.apply (decreaseExponent m' e' (min e e')).1) (min e e') .positive).neg
  rw [apply_neg, apply_neg, ← Int.neg_add]
  exact normalize_neg spec _ _ _

theorem sub_neg_neg : EqModZeroSign (sub spec u.neg v.neg) (sub spec u v).neg := by
  rcases u with (_ | _) | _ | (_ | _) | ⟨s, m, e, hm⟩ <;>
  rcases v with (_ | _) | _ | (_ | _) | ⟨t, m', e', hm'⟩
  all_goals first
    | exact .refl _
    | exact .zeros _ _
    | skip
  -- two finite values: the aligned mantissas change sign, and so does their difference
  show EqModZeroSign (UnpackedFloat.normalize spec
      ((-s).apply (decreaseExponent m e (min e e')).1 -
        (-t).apply (decreaseExponent m' e' (min e e')).1) (min e e') .positive)
    (UnpackedFloat.normalize spec
      (s.apply (decreaseExponent m e (min e e')).1 -
        t.apply (decreaseExponent m' e' (min e e')).1) (min e e') .positive).neg
  have hneg : ∀ x y : Int, -x - -y = -(x - y) := fun x y => by omega
  rw [apply_neg, apply_neg, hneg]
  exact normalize_neg spec _ _ _

theorem mul_neg_right : mul spec u v.neg = (mul spec u v).neg := by
  rcases u with (_ | _) | _ | (_ | _) | ⟨s, m, e, hm⟩ <;>
  rcases v with (_ | _) | _ | (_ | _) | ⟨t, m', e', hm'⟩ <;>
  simp only [UnpackedFloat.mul, UnpackedFloat.neg, mul_neg_sign, roundWithAccuracy_neg]

theorem mul_neg_left : mul spec u.neg v = (mul spec u v).neg := by
  rcases u with (_ | _) | _ | (_ | _) | ⟨s, m, e, hm⟩ <;>
  rcases v with (_ | _) | _ | (_ | _) | ⟨t, m', e', hm'⟩ <;>
  simp only [UnpackedFloat.mul, UnpackedFloat.neg, neg_mul_sign, roundWithAccuracy_neg]

theorem div_neg_left : div spec u.neg v = (div spec u v).neg := by
  rcases u with (_ | _) | _ | (_ | _) | ⟨s, m, e, hm⟩ <;>
  rcases v with (_ | _) | _ | (_ | _) | ⟨t, m', e', hm'⟩ <;>
  simp only [UnpackedFloat.div, UnpackedFloat.neg, neg_div_sign, roundWithAccuracy_neg]

/-! ### Operations that cannot tell the zeros apart -/

variable {spec}

/-- An operation that cannot tell the two zeros apart in either operand respects
`EqModZeroSign`. -/
theorem congr₂ {op : UnpackedFloat → UnpackedFloat → UnpackedFloat}
    (hl : ∀ v s s', EqModZeroSign (op (.zero s) v) (op (.zero s') v))
    (hr : ∀ u t t', EqModZeroSign (op u (.zero t)) (op u (.zero t')))
    {u u' v v' : UnpackedFloat} (hu : EqModZeroSign u u') (hv : EqModZeroSign v v') :
    EqModZeroSign (op u v) (op u' v') := by
  have h₁ : EqModZeroSign (op u v) (op u' v) := by
    rcases hu with rfl | ⟨s, s', rfl, rfl⟩
    · exact .refl _
    · exact hl v s s'
  have h₂ : EqModZeroSign (op u' v) (op u' v') := by
    rcases hv with rfl | ⟨t, t', rfl, rfl⟩
    · exact .refl _
    · exact hr u' t t'
  exact h₁.trans h₂

variable (spec)

theorem add_zero_left (s s' : Sign) :
    EqModZeroSign (add spec (.zero s) v) (add spec (.zero s') v) := by
  rcases s with _ | _ <;> rcases s' with _ | _ <;>
  rcases v with (_ | _) | _ | (_ | _) | ⟨_ | _, m, e, hm⟩ <;>
  first
    | exact .refl _
    | exact .zeros _ _

theorem add_zero_right (t t' : Sign) :
    EqModZeroSign (add spec u (.zero t)) (add spec u (.zero t')) := by
  rcases t with _ | _ <;> rcases t' with _ | _ <;>
  rcases u with (_ | _) | _ | (_ | _) | ⟨_ | _, m, e, hm⟩ <;>
  first
    | exact .refl _
    | exact .zeros _ _

theorem sub_zero_left (s s' : Sign) :
    EqModZeroSign (sub spec (.zero s) v) (sub spec (.zero s') v) := by
  rcases s with _ | _ <;> rcases s' with _ | _ <;>
  rcases v with (_ | _) | _ | (_ | _) | ⟨_ | _, m, e, hm⟩ <;>
  first
    | exact .refl _
    | exact .zeros _ _

theorem sub_zero_right (t t' : Sign) :
    EqModZeroSign (sub spec u (.zero t)) (sub spec u (.zero t')) := by
  rcases t with _ | _ <;> rcases t' with _ | _ <;>
  rcases u with (_ | _) | _ | (_ | _) | ⟨_ | _, m, e, hm⟩ <;>
  first
    | exact .refl _
    | exact .zeros _ _

theorem mul_zero_left (s s' : Sign) :
    EqModZeroSign (mul spec (.zero s) v) (mul spec (.zero s') v) := by
  rcases s with _ | _ <;> rcases s' with _ | _ <;>
  rcases v with (_ | _) | _ | (_ | _) | ⟨_ | _, m, e, hm⟩ <;>
  first
    | exact .refl _
    | exact .zeros _ _

theorem mul_zero_right (t t' : Sign) :
    EqModZeroSign (mul spec u (.zero t)) (mul spec u (.zero t')) := by
  rcases t with _ | _ <;> rcases t' with _ | _ <;>
  rcases u with (_ | _) | _ | (_ | _) | ⟨_ | _, m, e, hm⟩ <;>
  first
    | exact .refl _
    | exact .zeros _ _

theorem div_zero_left (s s' : Sign) :
    EqModZeroSign (div spec (.zero s) v) (div spec (.zero s') v) := by
  rcases s with _ | _ <;> rcases s' with _ | _ <;>
  rcases v with (_ | _) | _ | (_ | _) | ⟨_ | _, m, e, hm⟩ <;>
  first
    | exact .refl _
    | exact .zeros _ _

end Unpacked

/-! ## Packing -/

theorem unpack_packComponents_neg (s : Sign) (E : BitVec Format.binary64.exponentBits)
    (M : BitVec Format.binary64.mantissaBitsWithoutImplicit) :
    UnpackedFloat.unpack .binary64 (packComponents .binary64 (-s) E M) =
      (UnpackedFloat.unpack .binary64 (packComponents .binary64 s E M)).neg := by
  unfold UnpackedFloat.unpack
  simp only [unpackMantissa_packComponents, unpackExponent_packComponents,
    unpackSign_packComponents]
  split_ifs <;> rfl

/-- Packing a negated value flips only its sign bit, so unpacking it again gives the negation. -/
theorem unpack_pack_neg (w : UnpackedFloat) :
    (Float.Model.pack w.neg).unpack = (Float.Model.pack w).unpack.neg := by
  show UnpackedFloat.unpack .binary64 (UnpackedFloat.pack .binary64 w.neg) =
    (UnpackedFloat.unpack .binary64 (UnpackedFloat.pack .binary64 w)).neg
  cases w with
  | notANumber => rfl
  | infinity s => exact unpack_packComponents_neg s _ _
  | zero s => exact unpack_packComponents_neg s _ _
  | finite s m e hm =>
    simp only [UnpackedFloat.neg, UnpackedFloat.pack]
    split_ifs <;> exact unpack_packComponents_neg s _ _

theorem unpack_pack_congr {w w' : UnpackedFloat} (h : EqModZeroSign w w') :
    EqModZeroSign (Float.Model.pack w).unpack (Float.Model.pack w').unpack := by
  rcases h with rfl | ⟨s, t, rfl, rfl⟩
  · exact .refl _
  · rw [unpack_pack_zero, unpack_pack_zero]
    exact .zeros s t

/-! ## Floats -/

/-- Two floats are equal, or both are zeros whatever their signs. -/
def SameModZeroSign (a b : Float) : Prop := EqModZeroSign a.toModel.unpack b.toModel.unpack

namespace SameModZeroSign

variable {a a' b b' c : Float}

theorem refl (a : Float) : SameModZeroSign a a := EqModZeroSign.refl _

theorem symm (h : SameModZeroSign a b) : SameModZeroSign b a := EqModZeroSign.symm h

theorem trans (h₁ : SameModZeroSign a b) (h₂ : SameModZeroSign b c) : SameModZeroSign a c :=
  EqModZeroSign.trans h₁ h₂

theorem add (ha : SameModZeroSign a a') (hb : SameModZeroSign b b') :
    SameModZeroSign (a + b) (a' + b') :=
  unpack_pack_congr (Unpacked.congr₂ (Unpacked.add_zero_left _) (Unpacked.add_zero_right _) ha hb)

theorem sub (ha : SameModZeroSign a a') (hb : SameModZeroSign b b') :
    SameModZeroSign (a - b) (a' - b') :=
  unpack_pack_congr (Unpacked.congr₂ (Unpacked.sub_zero_left _) (Unpacked.sub_zero_right _) ha hb)

theorem mul (ha : SameModZeroSign a a') (hb : SameModZeroSign b b') :
    SameModZeroSign (a * b) (a' * b') :=
  unpack_pack_congr (Unpacked.congr₂ (Unpacked.mul_zero_left _) (Unpacked.mul_zero_right _) ha hb)

/-- Only the dividend may change the sign of a zero: a zero divisor decides the sign of the
infinity a quotient gives. -/
theorem div (ha : SameModZeroSign a a') (b : Float) : SameModZeroSign (a / b) (a' / b) := by
  rcases ha with h | ⟨s, s', hs, hs'⟩
  · rw [eq_of_unpack_eq h]
    exact refl _
  · show EqModZeroSign (Float.Model.pack (UnpackedFloat.div .binary64 a.toModel.unpack
      b.toModel.unpack)).unpack (Float.Model.pack (UnpackedFloat.div .binary64 a'.toModel.unpack
      b.toModel.unpack)).unpack
    rw [hs, hs']
    exact unpack_pack_congr (Unpacked.div_zero_left _ _ _ _)

theorem neg (h : SameModZeroSign a b) : SameModZeroSign (-a) (-b) := by
  unfold SameModZeroSign
  rw [unpack_neg, unpack_neg]
  exact EqModZeroSign.neg h

/-- The absolute value erases the sign of a zero. -/
theorem abs_eq (h : SameModZeroSign a b) : a.abs = b.abs := by
  apply eq_of_unpack_eq
  show (Float.Model.pack a.toModel.unpack.abs).unpack = (Float.Model.pack b.toModel.unpack.abs).unpack
  rw [EqModZeroSign.abs_eq h]

end SameModZeroSign

namespace FloatNeg

variable (a b : Float)

theorem add_neg_neg : SameModZeroSign ((-a) + (-b)) (-(a + b)) := by
  show EqModZeroSign (Float.Model.pack (UnpackedFloat.add .binary64 (-a).toModel.unpack
    (-b).toModel.unpack)).unpack (-(a + b)).toModel.unpack
  rw [unpack_neg, unpack_neg, unpack_neg]
  show EqModZeroSign _ (Float.Model.pack (UnpackedFloat.add .binary64 a.toModel.unpack
    b.toModel.unpack)).unpack.neg
  rw [← unpack_pack_neg]
  exact unpack_pack_congr (Unpacked.add_neg_neg _ _ _)

theorem sub_neg_neg : SameModZeroSign ((-a) - (-b)) (-(a - b)) := by
  show EqModZeroSign (Float.Model.pack (UnpackedFloat.sub .binary64 (-a).toModel.unpack
    (-b).toModel.unpack)).unpack (-(a - b)).toModel.unpack
  rw [unpack_neg, unpack_neg, unpack_neg]
  show EqModZeroSign _ (Float.Model.pack (UnpackedFloat.sub .binary64 a.toModel.unpack
    b.toModel.unpack)).unpack.neg
  rw [← unpack_pack_neg]
  exact unpack_pack_congr (Unpacked.sub_neg_neg _ _ _)

theorem mul_neg : a * -b = -(a * b) := by
  apply eq_of_unpack_eq
  show (Float.Model.pack (UnpackedFloat.mul .binary64 a.toModel.unpack
    (-b).toModel.unpack)).unpack = (-(a * b)).toModel.unpack
  rw [unpack_neg, unpack_neg, Unpacked.mul_neg_right, unpack_pack_neg]
  rfl

theorem neg_mul : -a * b = -(a * b) := by
  apply eq_of_unpack_eq
  show (Float.Model.pack (UnpackedFloat.mul .binary64 (-a).toModel.unpack
    b.toModel.unpack)).unpack = (-(a * b)).toModel.unpack
  rw [unpack_neg, unpack_neg, Unpacked.mul_neg_left, unpack_pack_neg]
  rfl

theorem neg_div : -a / b = -(a / b) := by
  apply eq_of_unpack_eq
  show (Float.Model.pack (UnpackedFloat.div .binary64 (-a).toModel.unpack
    b.toModel.unpack)).unpack = (-(a / b)).toModel.unpack
  rw [unpack_neg, unpack_neg, Unpacked.div_neg_left, unpack_pack_neg]
  rfl

theorem abs_neg : (-a).abs = a.abs := by
  apply eq_of_unpack_eq
  show (Float.Model.pack (-a).toModel.unpack.abs).unpack = (Float.Model.pack a.toModel.unpack.abs).unpack
  rw [unpack_neg, Unpacked.abs_neg]

end FloatNeg

/-! ## Negated operands -/

namespace SameModZeroSign

variable {a a' b b' : Float}

/-- The positive zero and its negation. -/
theorem zero_neg : SameModZeroSign 0 (-0) := by
  unfold SameModZeroSign
  rw [unpack_neg, zero_unpack]
  exact .zeros _ _

/-- The sum of two negated values is the negated sum. -/
theorem add_neg (ha : SameModZeroSign a' (-a)) (hb : SameModZeroSign b' (-b)) :
    SameModZeroSign (a' + b') (-(a + b)) :=
  (ha.add hb).trans (FloatNeg.add_neg_neg a b)

theorem sub_neg (ha : SameModZeroSign a' (-a)) (hb : SameModZeroSign b' (-b)) :
    SameModZeroSign (a' - b') (-(a - b)) :=
  (ha.sub hb).trans (FloatNeg.sub_neg_neg a b)

theorem mul_neg_left (ha : SameModZeroSign a' (-a)) (b : Float) :
    SameModZeroSign (a' * b) (-(a * b)) := by
  rw [← FloatNeg.neg_mul]
  exact ha.mul (refl b)

theorem mul_neg_right (a : Float) (hb : SameModZeroSign b' (-b)) :
    SameModZeroSign (a * b') (-(a * b)) := by
  rw [← FloatNeg.mul_neg]
  exact (refl a).mul hb

theorem div_neg (ha : SameModZeroSign a' (-a)) (b : Float) :
    SameModZeroSign (a' / b) (-(a / b)) := by
  rw [← FloatNeg.neg_div]
  exact ha.div b

/-- A negated value has the same absolute value. -/
theorem abs_eq_of_neg (ha : SameModZeroSign a' (-a)) : a'.abs = a.abs := by
  rw [ha.abs_eq, FloatNeg.abs_neg]

end SameModZeroSign

end Decimation
