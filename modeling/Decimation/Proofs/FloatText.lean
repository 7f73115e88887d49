import Mathlib
import Decimation.Proofs.ShortestDecimal
import Decimation.Proofs.FloatBits
import Decimation.Proofs.Except
/-!
# Reading back the text of a float

`floatText` prints a float with its shortest digits in general notation, and
`Decimal.readFloat` reads a float from text. The main statement, `readFloat_floatText`: every
float is read back from its text, the infinities and the sign of zero included; the model has
one NaN, so NaN is read back too.

The texts the writer lays out are the `DecimalText`s: whole digits, fraction digits after a
point when there are any, and an exponent part. The reader takes such a text to the float
nearest to its digits and exponent (`readNumber_decimal`), and both layouts of general notation
are decimal texts of the decimal's value (`decimalText_generalText`). What is left is the
rounding argument of `ShortestDecimal` and the sign bit.
-/

namespace Decimation.Decimal

/-! ## Digits -/

theorem ne_of_isDigit {c : Char} (h : c.isDigit = true) : c ≠ '_' ∧ c ≠ '.' ∧ c ≠ 'e' := by
  refine ⟨?_, ?_, ?_⟩ <;> (rintro rfl; simp at h)

theorem le_of_isDigit {c : Char} (h : c.isDigit = true) : '0' ≤ c ∧ c ≤ '9' := by
  simp only [Char.isDigit, Bool.and_eq_true, decide_eq_true_eq] at h
  exact ⟨h.1, h.2⟩

theorem digitValue_of_isDigit {c : Char} (h : c.isDigit = true) :
    digitValue false c = some (c.toNat - 48) := by
  rw [digitValue, if_pos (le_of_isDigit h)]

/-- Digits are read into the value, and counted as fraction digits after a point. -/
theorem readDigits_append {cs : List Char} (hcs : ∀ c ∈ cs, c.isDigit = true) (rest : List Char)
    (d : Digits) :
    readDigits false (cs ++ rest) d = readDigits false rest
      ⟨Nat.ofDigitChars 10 cs d.value, if d.sawDot then d.fraction + cs.length else d.fraction,
        d.sawDot, d.sawDigit || !cs.isEmpty, d.underscores⟩ := by
  induction cs generalizing d with
  | nil => cases d; simp
  | cons c cs ih =>
    have hc := hcs c (by simp)
    obtain ⟨h_, hdot, -⟩ := ne_of_isDigit hc
    rw [List.cons_append, readDigits, if_neg h_, if_neg hdot, digitValue_of_isDigit hc]
    dsimp only
    rw [ih (fun c hc => hcs c (by simp [hc]))]
    have hv : Nat.ofDigitChars 10 (c :: cs) d.value = Nat.ofDigitChars 10 cs (d.value * 10 + (c.toNat - 48)) := by
      rw [Nat.ofDigitChars_cons, Nat.mul_comm]
      rfl
    cases d with
    | mk value fraction sawDot sawDigit underscores =>
      cases sawDot <;> simp [hv, Nat.add_assoc, Nat.add_comm 1]

theorem readDigits_nil (d : Digits) : readDigits false [] d = (d, []) := by
  rw [readDigits]

theorem readDigits_exponent (rest : List Char) (d : Digits) :
    readDigits false ('e' :: rest) d = (d, 'e' :: rest) := by
  rw [readDigits, if_neg (by decide), if_neg (by decide)]
  rfl

theorem readDigits_dot (rest : List Char) (d : Digits) (h : d.sawDot = false) :
    readDigits false ('.' :: rest) d = readDigits false rest { d with sawDot := true } := by
  rw [readDigits, if_neg (by decide), if_pos rfl, h]
  rfl

/-- The mantissa of a decimal text: its digits with the point between whole and fraction
digits, up to the exponent. -/
theorem readDigits_mantissa {a b rest : List Char} (ha : a ≠ []) (hda : ∀ c ∈ a, c.isDigit = true)
    (hdb : ∀ c ∈ b, c.isDigit = true) (hrest : rest = [] ∨ rest.head? = some 'e') :
    readDigits false (a ++ (if b = [] then [] else '.' :: b) ++ rest) ⟨0, 0, false, false, false⟩ =
      (⟨Nat.ofDigitChars 10 (a ++ b) 0, b.length, !b.isEmpty, true, false⟩, rest) := by
  have hstop : ∀ d, readDigits false rest d = (d, rest) := by
    intro d
    rcases hrest with rfl | h
    · exact readDigits_nil d
    · obtain ⟨r, rfl⟩ : ∃ r, rest = 'e' :: r := by
        cases rest with
        | nil => simp at h
        | cons c r => simp at h; exact ⟨r, by rw [h]⟩
      exact readDigits_exponent r d
  have hsaw : (false || !a.isEmpty) = true := by simpa using ha
  rw [List.append_assoc, readDigits_append hda]
  by_cases hb : b = []
  · subst hb
    simp only [↓reduceIte, List.nil_append, hstop, hsaw, List.append_nil]
    rfl
  · rw [if_neg hb, List.cons_append, readDigits_dot _ _ rfl, readDigits_append hdb, hstop,
      Nat.ofDigitChars_append]
    simp [hsaw, hb]

theorem readExponent_digits {ds : List Char} (hd : ∀ c ∈ ds, c.isDigit = true) {e : ℕ}
    (hlt : Nat.ofDigitChars 10 ds e < 10000) (u : Bool) :
    readExponent ds e u = (Nat.ofDigitChars 10 ds e, u, []) := by
  induction ds generalizing e with
  | nil => rw [readExponent, Nat.ofDigitChars_nil]
  | cons c ds ih =>
    have hc := hd c (by simp)
    -- the value read so far is below the whole value, so the cap of `10000` is never reached
    have he : e < 10000 := by
      have := @Nat.ofDigitChars_eq_ofDigitChars_zero (c :: ds) e
      have : e ≤ 10 ^ (c :: ds).length * e := Nat.le_mul_of_pos_left e (by positivity)
      omega
    rw [readExponent, if_neg (ne_of_isDigit hc).1, if_pos (le_of_isDigit hc), if_pos he,
      Nat.ofDigitChars_cons]
    rw [Nat.ofDigitChars_cons] at hlt
    rw [show e * 10 + (c.toNat - 48) = 10 * e + (c.toNat - '0'.toNat) by rw [Nat.mul_comm]; rfl]
    exact ih (fun c hc => hd c (by simp [hc])) hlt

/-- The exponent part of a decimal text and its value: nothing, or `e`, a sign and digits whose
value stays below the reader's cap. -/
inductive ExponentText : List Char → ℤ → Prop
  | none : ExponentText [] 0
  | signed (neg : Bool) {ds : List Char} (hne : ds ≠ []) (hd : ∀ c ∈ ds, c.isDigit = true)
      (hlt : Nat.ofDigitChars 10 ds 0 < 10000) :
      ExponentText ('e' :: (if neg then '-' else '+') :: ds)
        (if neg then -(Nat.ofDigitChars 10 ds 0 : ℤ) else Nat.ofDigitChars 10 ds 0)

/-- The characters of a decimal text. -/
def IsNumberChar (c : Char) : Prop := c.isDigit = true ∨ c = '.' ∨ c = 'e' ∨ c = '+' ∨ c = '-'

theorem ExponentText.isNumberChar {ep : List Char} {E : ℤ} (h : ExponentText ep E) :
    ∀ x ∈ ep, IsNumberChar x := by
  cases h with
  | none => simp
  | signed neg hne hd hlt =>
    intro x hx
    simp only [List.mem_cons] at hx
    rcases hx with rfl | rfl | hx
    · exact .inr (.inr (.inl rfl))
    · cases neg <;> simp [IsNumberChar]
    · exact .inl (hd x hx)

theorem lowerChar_eq_self {c : Char} (h : IsNumberChar c) : lowerChar c = c := by
  have hup : ¬ ('A' ≤ c ∧ c ≤ 'Z') := by
    rcases h with h | rfl | rfl | rfl | rfl
    · -- a digit lies below every upper-case letter
      intro hAZ
      exact absurd (le_trans hAZ.1 (le_of_isDigit h).2) (by decide)
    all_goals decide
  rw [lowerChar, if_neg hup]

theorem lowerChar_ne_x {c : Char} (h : IsNumberChar c) : lowerChar c ≠ 'x' := by
  rw [lowerChar_eq_self h]
  rintro rfl
  rcases h with h | h | h | h | h <;> simp_all

/-- The decimal texts the writer lays out, with their values: whole digits, the fraction digits
after a point when there are any, and an exponent part. -/
inductive DecimalText : List Char → ℚ → Prop
  | mk {a b ep : List Char} {E : ℤ} (ha : a ≠ []) (hda : ∀ c ∈ a, c.isDigit = true)
      (hdb : ∀ c ∈ b, c.isDigit = true) (hep : ExponentText ep E) :
      DecimalText (a ++ (if b = [] then [] else '.' :: b) ++ ep)
        ((Nat.ofDigitChars 10 (a ++ b) 0 : ℚ) * 10 ^ (E - b.length))

/-- A decimal text with an optional `-` is read as its digits and exponent. -/
theorem readNumber_decimal (neg : Bool) {a b ep : List Char} {E : ℤ} (ha : a ≠ [])
    (hda : ∀ c ∈ a, c.isDigit = true) (hdb : ∀ c ∈ b, c.isDigit = true) (hep : ExponentText ep E) :
    readNumber ((if neg then ['-'] else []) ++ (a ++ (if b = [] then [] else '.' :: b) ++ ep)) =
      .ok (neg, nearestDecimal (Nat.ofDigitChars 10 (a ++ b) 0) (E - b.length), []) := by
  obtain ⟨c, a', rfl⟩ := List.exists_cons_of_ne_nil ha
  have hc := hda c (by simp)
  have hplus : c ≠ '+' := by rintro rfl; simp at hc
  have hminus : c ≠ '-' := by rintro rfl; simp at hc
  unfold readNumber
  -- the sign: a `-` is taken off, and a digit is no sign
  split
  rename_i neg' body hsign
  obtain ⟨rfl, rfl⟩ : neg' = neg ∧ body = (c :: a') ++ (if b = [] then [] else '.' :: b) ++ ep := by
    split at hsign
    · rename_i heq
      cases neg <;> simp_all
    · rename_i heq
      cases neg <;> simp_all
    · rename_i hnp hnm
      cases neg
      · simp_all
      · exact absurd rfl (hnm _)
  have hbody : ∀ x ∈ (c :: a') ++ (if b = [] then [] else '.' :: b) ++ ep, IsNumberChar x := by
    intro x hx
    rcases List.mem_append.mp hx with hx | hx
    · rcases List.mem_append.mp hx with hx | hx
      · exact .inl (hda x hx)
      · split_ifs at hx
        · simp at hx
        · rcases List.mem_cons.mp hx with rfl | hx
          · exact .inr (.inl rfl)
          · exact .inl (hdb x hx)
    · exact hep.isNumberChar x hx
  -- no second character of a number text is an `x`, so the text is not hexadecimal
  split
  rename_i hex body hhex
  obtain ⟨rfl, rfl⟩ : hex = false ∧ body = (c :: a') ++ (if b = [] then [] else '.' :: b) ++ ep := by
    split at hhex
    · rename_i x c' r heq
      rw [if_neg (lowerChar_ne_x (hbody x (by rw [heq]; simp)))] at hhex
      simp_all
    · simp_all
  have hrest : ep = [] ∨ ep.head? = some 'e' := by
    cases hep with
    | none => exact .inl rfl
    | signed => exact .inr rfl
  rw [readDigits_mantissa ha hda hdb hrest]
  -- the exponent: none, or `e`, a sign and digits below the reader's cap
  cases hep with
  | none =>
    simp
    exact pure_eq_ok _
  | signed eneg hne hd hlt =>
    obtain ⟨d0, ds, rfl⟩ := List.exists_cons_of_ne_nil hne
    have hd0 := le_of_isDigit (hd d0 (by simp))
    have he : lowerChar 'e' = 'e' := by decide
    cases eneg <;> simp [he, hd0, readExponent_digits hd hlt] <;> exact pure_eq_ok _

/-- A decimal text with an optional `-` is read as a number of its value. -/
theorem DecimalText.readNumber (neg : Bool) {cs : List Char} {v : ℚ} (h : DecimalText cs v) :
    ∃ (m : ℕ) (k : ℤ), (m : ℚ) * 10 ^ k = v ∧
      Decimal.readNumber ((if neg then ['-'] else []) ++ cs) = .ok (neg, nearestDecimal m k, []) := by
  cases h with
  | mk ha hda hdb hep => exact ⟨_, _, rfl, readNumber_decimal neg ha hda hdb hep⟩

/-! ## Layouts -/

@[simp] theorem toList_zeros (n : ℕ) : (zeros n).toList = List.replicate n '0' := by
  simp [zeros]

theorem ofDigitChars_zero_cons (cs : List Char) :
    Nat.ofDigitChars 10 ('0' :: cs) 0 = Nat.ofDigitChars 10 cs 0 := by
  rw [Nat.ofDigitChars_cons]
  rfl

/-- Positional text is a decimal text of its digits scaled by the place of the point. -/
theorem decimalText_positional {ds : List Char} (hne : ds ≠ []) (hd : ∀ c ∈ ds, c.isDigit = true)
    (p : ℤ) :
    DecimalText (positionalText (String.ofList ds) p).toList
      ((Nat.ofDigitChars 10 ds 0 : ℚ) * 10 ^ (p - ds.length)) := by
  have hzeros : ∀ n, ∀ c ∈ List.replicate n '0', c.isDigit = true := by
    intro n c hc
    rw [List.eq_of_mem_replicate hc]
    rfl
  unfold positionalText
  simp only [String.length_ofList, String.toList_ofList]
  split_ifs with hp hlen
  · -- `0.`, zeros, then the digits
    set b := List.replicate p.natAbs '0' ++ ds
    have hb : b ≠ [] := by simp [b, hne]
    have hcs : ("0." ++ zeros p.natAbs ++ String.ofList ds).toList =
        ['0'] ++ (if b = [] then [] else '.' :: b) ++ [] := by
      simp [b, hb]
    have hv : (Nat.ofDigitChars 10 ds 0 : ℚ) * 10 ^ (p - ds.length) =
        (Nat.ofDigitChars 10 (['0'] ++ b) 0 : ℚ) * 10 ^ ((0 : ℤ) - b.length) := by
      rw [List.singleton_append, ofDigitChars_zero_cons, Nat.ofDigitChars_append,
        Nat.ofDigitChars_replicate_zero, Nat.mul_zero]
      congr 2
      simp only [b, List.length_append, List.length_replicate]
      omega
    rw [hcs, hv]
    exact .mk (by simp) (by simp) (fun c hc => (List.mem_append.mp hc).elim (hzeros _ c) (hd c))
      .none
  · -- the digits, then zeros up to the point
    set a := ds ++ List.replicate (p.toNat - ds.length) '0'
    have hcs : (String.ofList ds ++ zeros (p.toNat - ds.length)).toList =
        a ++ (if ([] : List Char) = [] then [] else '.' :: []) ++ [] := by
      simp [a]
    have hv : (Nat.ofDigitChars 10 ds 0 : ℚ) * 10 ^ (p - ds.length) =
        (Nat.ofDigitChars 10 (a ++ []) 0 : ℚ) * 10 ^ ((0 : ℤ) - ([] : List Char).length) := by
      rw [List.append_nil, Nat.ofDigitChars_append, Nat.ofDigitChars_replicate_zero,
        List.length_nil, Nat.cast_zero, sub_zero, zpow_zero, mul_one, Nat.cast_mul, Nat.cast_pow,
        mul_comm, show p - ds.length = ((p.toNat - ds.length : ℕ) : ℤ) by omega, zpow_natCast]
      rfl
    rw [hcs, hv]
    exact .mk (by simp [a, hne]) (fun c hc => (List.mem_append.mp hc).elim (hd c) (hzeros _ c))
      (by simp) .none
  · -- the point among the digits
    set a := ds.take p.toNat
    set b := ds.drop p.toNat
    have hb : b ≠ [] := by simp [b]; omega
    have hcs : (String.ofList (ds.take p.toNat) ++ "." ++ String.ofList (ds.drop p.toNat)).toList =
        a ++ (if b = [] then [] else '.' :: b) ++ [] := by
      simp [a, b, hb]
    have hv : (Nat.ofDigitChars 10 ds 0 : ℚ) * 10 ^ (p - ds.length) =
        (Nat.ofDigitChars 10 (a ++ b) 0 : ℚ) * 10 ^ ((0 : ℤ) - b.length) := by
      rw [List.take_append_drop]
      congr 2
      simp only [b, List.length_drop]
      omega
    rw [hcs, hv]
    exact .mk (by simp [a, hne]; omega) (fun c hc => hd c (List.mem_of_mem_take hc))
      (fun c hc => hd c (List.mem_of_mem_drop hc)) .none

/-- The exponent of scientific text: `e`, its sign, and its digits padded to two. -/
theorem exponentText_scientific (e : ℤ) (he : e.natAbs < 10000) :
    ExponentText ('e' :: (if e < 0 then '-' else '+') ::
        (if (toString e.natAbs).length < 2 then "0" ++ toString e.natAbs
          else toString e.natAbs).toList) e := by
  set ds := (if (toString e.natAbs).length < 2 then "0" ++ toString e.natAbs
    else toString e.natAbs).toList
  have hdigits : ∀ c ∈ Nat.toDigits 10 e.natAbs, c.isDigit = true :=
    fun c hc => Nat.isDigit_of_mem_toDigits (by norm_num) (by norm_num) hc
  have hds : ds = if (Nat.toDigits 10 e.natAbs).length < 2 then '0' :: Nat.toDigits 10 e.natAbs
      else Nat.toDigits 10 e.natAbs := by
    simp only [ds, Nat.toString_eq_repr, String.length_toList.symm, Nat.toList_repr]
    split_ifs <;> simp
  have hval : Nat.ofDigitChars 10 ds 0 = e.natAbs := by
    rw [hds]
    split_ifs <;> simp [ofDigitChars_zero_cons]
  have hd : ∀ c ∈ ds, c.isDigit = true := by
    rw [hds]
    split_ifs
    · intro c hc
      rcases List.mem_cons.mp hc with rfl | hc
      · rfl
      · exact hdigits c hc
    · exact hdigits
  have hne : ds ≠ [] := by
    rw [hds]
    split_ifs <;> simp
  have h := ExponentText.signed (decide (e < 0)) hne hd (by rw [hval]; exact he)
  rw [hval] at h
  convert h using 2
  · by_cases hneg : e < 0 <;> simp [hneg]
  · by_cases hneg : e < 0
    · simp [hneg, abs_of_neg hneg]
    · simp [hneg, abs_of_nonneg (not_lt.mp hneg)]

/-- Scientific text is a decimal text of its digits scaled by the power of the first. -/
theorem decimalText_scientific {ds : List Char} (hne : ds ≠ []) (hd : ∀ c ∈ ds, c.isDigit = true)
    (e : ℤ) (he : e.natAbs < 10000) :
    DecimalText (scientificText (String.ofList ds) e).toList
      ((Nat.ofDigitChars 10 ds 0 : ℚ) * 10 ^ (e + 1 - ds.length)) := by
  have hep := exponentText_scientific e he
  obtain ⟨c, rest, rfl⟩ := List.exists_cons_of_ne_nil hne
  unfold scientificText
  simp only [String.toList_ofList]
  set mag := if (toString e.natAbs).length < 2 then "0" ++ toString e.natAbs else toString e.natAbs
  have hsign : (if e < 0 then "-" else "+").toList = [if e < 0 then '-' else '+'] := by
    split_ifs <;> rfl
  split
  · rename_i heq
    exact absurd heq (List.cons_ne_nil _ _)
  · -- one digit: no point
    rename_i c' heq
    obtain ⟨rfl, rfl⟩ := List.cons_eq_cons.mp heq
    have hcs : ((String.singleton c ++ "e" ++ if e < 0 then "-" else "+") ++ mag).toList =
        [c] ++ (if ([] : List Char) = [] then [] else '.' :: []) ++
          ('e' :: (if e < 0 then '-' else '+') :: mag.toList) := by
      simp [hsign]
    have hv : (Nat.ofDigitChars 10 [c] 0 : ℚ) * 10 ^ (e + 1 - ([c].length : ℤ)) =
        (Nat.ofDigitChars 10 ([c] ++ []) 0 : ℚ) * 10 ^ (e - (([] : List Char).length : ℤ)) := by
      simp
    rw [hcs, hv]
    exact .mk (by simp) hd (by simp) hep
  · -- a point after the first digit
    rename_i c' rest' hrest heq
    obtain ⟨rfl, rfl⟩ := List.cons_eq_cons.mp heq
    have hcs : ((String.singleton c ++ "." ++ String.ofList rest ++ "e" ++
        if e < 0 then "-" else "+") ++ mag).toList =
        [c] ++ (if rest = [] then [] else '.' :: rest) ++
          ('e' :: (if e < 0 then '-' else '+') :: mag.toList) := by
      simp [hsign, if_neg hrest]
    have hv : (Nat.ofDigitChars 10 (c :: rest) 0 : ℚ) * 10 ^ (e + 1 - ((c :: rest).length : ℤ)) =
        (Nat.ofDigitChars 10 ([c] ++ rest) 0 : ℚ) * 10 ^ (e - (rest.length : ℤ)) := by
      simp only [List.singleton_append, List.length_cons, Nat.cast_add, Nat.cast_one]
      ring_nf
    rw [hcs, hv]
    exact .mk (by simp) (fun x hx => hd x (by simp_all)) (fun x hx => hd x (by simp [hx])) hep

/-- General notation is a decimal text of the decimal's value. -/
theorem decimalText_generalText (d : Decimal) (hpt : (d.point - 1).natAbs < 10000) :
    DecimalText d.generalText.toList d.value := by
  have hdigits : d.digits = String.ofList (Nat.toDigits 10 d.coeff) := rfl
  have hd : ∀ c ∈ Nat.toDigits 10 d.coeff, c.isDigit = true :=
    fun c hc => Nat.isDigit_of_mem_toDigits (by norm_num) (by norm_num) hc
  have hpoint : d.point = ((Nat.toDigits 10 d.coeff).length : ℤ) + d.exp := by
    rw [point, hdigits, String.length_ofList]
  have hv : ∀ k : ℤ, k = d.exp → d.value =
      (Nat.ofDigitChars 10 (Nat.toDigits 10 d.coeff) 0 : ℚ) * 10 ^ k := by
    rintro k rfl
    rw [Nat.ofDigitChars_ten_toDigits, value]
  unfold generalText
  dsimp only
  rw [hdigits]
  split
  · rw [hv (d.point - 1 + 1 - (Nat.toDigits 10 d.coeff).length) (by omega)]
    exact decimalText_scientific Nat.toDigits_ne_nil hd _ hpt
  · rw [hv (d.point - (Nat.toDigits 10 d.coeff).length) (by omega)]
    exact decimalText_positional Nat.toDigits_ne_nil hd _

/-! ## Reading a decimal text -/

/-- A decimal text starts with a digit. -/
theorem DecimalText.exists_cons {cs : List Char} {v : ℚ} (h : DecimalText cs v) :
    ∃ c t, cs = c :: t ∧ c.isDigit = true := by
  cases h with
  | mk ha hda hdb hep =>
    rename_i a b ep E
    obtain ⟨c, a', rfl⟩ := List.exists_cons_of_ne_nil ha
    exact ⟨c, _, rfl, hda c (by simp)⟩

/-- No word the reader knows starts with a digit. -/
theorem spells_digit {c : Char} (hc : c.isDigit = true) (t : List Char) (w : String)
    (hw : (w.toList.head? = some 'i') ∨ (w.toList.head? = some 'n')) : spells (c :: t) w = false := by
  have hne : ∀ x, w.toList.head? = some x → c ≠ x := by
    rintro x hx rfl
    rcases hw with hw | hw <;> rw [hw] at hx <;> cases hx <;> simp at hc
  unfold spells
  rw [List.map_cons, lowerChar_eq_self (.inl hc)]
  cases hws : w.toList with
  | nil => rfl
  | cons x xs =>
    have := hne x (by rw [hws]; rfl)
    simp [this]

/-- A number with an optional `-` is no infinity and no NaN. -/
theorem special_digit (neg : Bool) {c : Char} (hc : c.isDigit = true) (t : List Char) :
    special ((if neg then ['-'] else []) ++ c :: t) = none := by
  have hinf := spells_digit hc t "inf" (.inl rfl)
  have hinfinity := spells_digit hc t "infinity" (.inl rfl)
  have hnan := spells_digit hc t "nan" (.inr rfl)
  cases neg
  · unfold special
    split
    · rename_i r h
      cases h
      simp at hc
    · rename_i r h
      cases h
      simp at hc
    · rename_i r _ _
      simp [hinf, hinfinity, hnan]
  · simp [special, hinf, hinfinity]

/-- A decimal text whose value rounds to a finite float, with an optional `-`, is read as that
float or its negation. -/
theorem readFloat_decimalText (neg : Bool) {cs : List Char} {v : ℚ} (h : DecimalText cs v)
    {mF : ℕ} {eF : ℤ} (hc : Canonical mF eF) (he : eF ≤ 971) (hin : InRoundingInterval mF eF v) :
    ∃ g : Float, g.toModel.unpack = .finite .positive mF eF hc.pos ∧
      readFloat (String.ofList ((if neg then ['-'] else []) ++ cs)) = .ok (if neg then -g else g) := by
  obtain ⟨m, k, rfl, hread⟩ := h.readNumber neg
  obtain ⟨c, t, rfl, hcd⟩ := h.exists_cons
  have hm : 0 < m := by
    rcases Nat.eq_zero_or_pos m with rfl | hm
    · have := hin.two_zpow_le hc
      simp at this
      exact absurd this (not_le.mpr (by positivity))
    · exact hm
  obtain ⟨g, hg, hu⟩ := nearestDecimal_eq_some hm hc he hin
  refine ⟨g, hu, ?_⟩
  unfold readFloat
  simp only [String.toList_ofList]
  rw [special_digit neg hcd t]
  simp [hread, hg, ok_bind, pure_eq_ok]

/-- The general text of the shortest decimal of a finite float is a decimal text of a value
that rounds to the float. -/
theorem decimalText_shortest {x : Binary} (hm : 0 < x.mantissa)
    (hn : x.narrowBelow = decide (x.mantissa = 2 ^ 52 ∧ -1074 < x.exponent))
    (hc : Canonical x.mantissa x.exponent) (he : x.exponent ≤ 971) :
    DecimalText x.shortest.generalText.toList x.shortest.value := by
  have hin := Binary.shortest_mem hm hn
  have hcoeff : 0 < x.shortest.coeff := by
    rcases Nat.eq_zero_or_pos x.shortest.coeff with h0 | h0
    · have := hin.two_zpow_le hc
      rw [value, h0, Nat.cast_zero, zero_mul] at this
      exact absurd this (not_le.mpr (by positivity))
    · exact h0
  obtain ⟨hlo, hhi⟩ := length_repr_add_mem hcoeff hc he hin
  apply decimalText_generalText
  have hpoint : x.shortest.point = (x.shortest.coeff.repr.length : ℤ) + x.shortest.exp := rfl
  omega

end Decimation.Decimal

namespace Decimation

open Float.Model Float.Model.UnpackedFloat

/-! ## Signs -/

/-- Negation flips the sign the model unpacks. -/
theorem unpack_neg (x : Float) : (-x).toModel.unpack = x.toModel.unpack.neg := by
  show (Float.Model.pack x.toModel.unpack.neg).unpack = _
  cases hx : x.toModel.unpack with
  | notANumber => rfl
  | infinity s => cases s <;> rfl
  | zero s => exact unpack_pack_zero _
  | finite s m e hm =>
    obtain ⟨hc, he⟩ := canonical_of_unpack_eq hx
    exact unpack_pack_finite (-s) hc he

/-- The sign the model reads from a word is its top bit. -/
theorem ofBitVec_unpackSign (b : UInt64) :
    Sign.ofBitVec (@unpackSign Format.binary64 b.toBitVec) =
      if (b >>> 63 == 1) = true then .negative else .positive := by
  have hlt := b.toNat_lt_size
  simp only [UInt64.size] at hlt
  have hbit : (@unpackSign Format.binary64 b.toBitVec).toNat = b.toNat / 2 ^ 63 := by
    simp [unpackSign, Nat.shiftRight_eq_div_pow]
    omega
  have htop : (b >>> 63 == 1) = true ↔ b.toNat / 2 ^ 63 = 1 := by
    simp [UInt64.ext_iff, UInt64.toNat_shiftRight, Nat.shiftRight_eq_div_pow]
  unfold Sign.ofBitVec
  by_cases h : b.toNat / 2 ^ 63 = 1
  · rw [if_neg, if_pos (htop.mpr h)]
    intro h0
    have := congrArg BitVec.toNat h0
    simp only [hbit, h] at this
    exact absurd this (by decide)
  · rw [if_pos, if_neg (fun h' => h (htop.mp h'))]
    apply BitVec.eq_of_toNat_eq
    rw [hbit]
    simp only [BitVec.toNat_ofNat]
    omega

/-- Apart from NaN, the model unpacks a word to its magnitude with the sign of its top bit. -/
theorem unpack_eq_signed (b : UInt64) :
    UnpackedFloat.unpack .binary64 b.toBitVec =
      if (b >>> 63 == 1) = true then (UnpackedFloat.unpack .binary64 b.toBitVec).abs.neg
      else (UnpackedFloat.unpack .binary64 b.toBitVec).abs := by
  unfold UnpackedFloat.unpack
  dsimp only
  rw [ofBitVec_unpackSign]
  split_ifs <;> rfl

theorem eq_of_unpack_eq {x y : Float} (h : x.toModel.unpack = y.toModel.unpack) : x = y := by
  have hm : x.toModel = y.toModel := by
    rw [← model_pack_unpack x.toModel, ← model_pack_unpack y.toModel, h]
  calc x = Float.ofModel x.toModel := rfl
    _ = Float.ofModel y.toModel := by rw [hm]
    _ = y := rfl

/-- A float is its magnitude with the sign of its top bit. -/
theorem signed_eq {f g : Float} (hg : g.toModel.unpack = f.toModel.unpack.abs) :
    (if (f.toBits >>> 63 == 1) = true then -g else g) = f := by
  have hf : f.toModel.unpack = if (f.toBits >>> 63 == 1) = true then f.toModel.unpack.abs.neg
      else f.toModel.unpack.abs := unpack_eq_signed f.toBits
  apply eq_of_unpack_eq
  split
  · rename_i hneg
    rw [if_pos hneg] at hf
    rw [unpack_neg, hg, ← hf]
  · rename_i hneg
    rw [if_neg hneg] at hf
    rw [hg, ← hf]

/-- A zero has no mantissa bits. -/
theorem ofBits_mantissa_of_zero {b : UInt64} {s : Sign}
    (hu : UnpackedFloat.unpack .binary64 b.toBitVec = .zero s) : (Binary.ofBits b).mantissa = 0 := by
  unfold Binary.ofBits
  rw [exponentField_eq, mantissaField_eq]
  unfold UnpackedFloat.unpack at hu
  dsimp only at hu
  by_cases hexp : @unpackExponent Format.binary64 b.toBitVec = 0#11
  · by_cases hmant : @unpackMantissa Format.binary64 b.toBitVec = 0#52
    · simp [hexp, hmant]
    · rw [if_neg (by rw [hexp]; decide), if_pos hexp, dif_neg hmant] at hu
      cases hu
  · by_cases hall : @unpackExponent Format.binary64 b.toBitVec = -1#11
    · rw [if_pos hall] at hu
      split at hu <;> cases hu
    · rw [if_neg hall, if_neg hexp] at hu
      cases hu

/-- The text of a sign and a magnitude. -/
theorem signed_text (neg : Bool) (t : String) :
    (if neg then "-" else "") ++ t = String.ofList ((if neg then ['-'] else []) ++ t.toList) := by
  rw [← String.toList_inj]
  cases neg <;> simp

/-- Every float is read back from its text: the shortest digits round to the float, the sign
and the infinities are kept, and the model has one NaN. -/
theorem readFloat_floatText (f : Float) : Decimal.readFloat (floatText f) = .ok f := by
  unfold floatText
  by_cases hnan : f.isNaN = true
  · rw [if_pos hnan, eq_nan_of_isNaN hnan]
    decide
  rw [if_neg hnan]
  dsimp only
  -- the text is that of the magnitude `g`, with the sign of the top bit
  suffices h : ∃ g : Float, g.toModel.unpack = f.toModel.unpack.abs ∧
      Decimal.readFloat (if f.isInf = true then (if (f.toBits >>> 63 == 1) = true then "-Inf" else "+Inf")
        else (if (f.toBits >>> 63 == 1) = true then "-" else "") ++ magnitudeText f.toBits) =
        .ok (if (f.toBits >>> 63 == 1) = true then -g else g) by
    obtain ⟨g, hg, hread⟩ := h
    rw [hread, signed_eq hg]
  have hbits : f.toModel.unpack = UnpackedFloat.unpack .binary64 f.toBits.toBitVec := rfl
  cases hu : f.toModel.unpack with
  | notANumber =>
    simp [Float.isNaN, Float.Model.isNaN, hu, UnpackedFloat.isNaN] at hnan
  | infinity s =>
    have hinf : f.isInf = true := by simp [Float.isInf, Float.Model.isInf, hu, UnpackedFloat.isInf]
    refine ⟨Decimal.infinity, rfl, ?_⟩
    rw [if_pos hinf]
    split <;> decide
  | zero s =>
    have hinf : f.isInf = false := by simp [Float.isInf, Float.Model.isInf, hu, UnpackedFloat.isInf]
    have hm := ofBits_mantissa_of_zero (hbits ▸ hu)
    refine ⟨0, rfl, ?_⟩
    rw [if_neg (by simp [hinf]), magnitudeText, if_pos hm]
    split <;> decide
  | finite s m e hm =>
    have hinf : f.isInf = false := by simp [Float.isInf, Float.Model.isInf, hu, UnpackedFloat.isInf]
    obtain ⟨hc, he⟩ := canonical_of_unpack_eq (hbits ▸ hu)
    have hx := ofBits_eq_of_unpack (hbits ▸ hu)
    rw [if_neg (by simp [hinf]), magnitudeText, hx, if_neg hm.ne']
    have htext := Decimal.decimalText_shortest (x := ⟨m, e, decide (m = 2 ^ 52 ∧ -1074 < e)⟩) hm rfl hc he
    have hin := Binary.shortest_mem (x := ⟨m, e, decide (m = 2 ^ 52 ∧ -1074 < e)⟩) hm rfl
    obtain ⟨g, hg, hread⟩ := Decimal.readFloat_decimalText (f.toBits >>> 63 == 1) htext hc he hin
    exact ⟨g, hg, by rw [signed_text, hread]⟩

end Decimation
