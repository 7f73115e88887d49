import Mathlib
import Decimation.Text.Blank
import Decimation.Proofs.Payload
/-!
# Reading UTF-8 and writing it back

Every byte string is the bytes of its items written back: each code point in UTF-8, each stray
byte as it is (`itemBytes_utf8Items`). The reader takes a code point only from its shortest
encoding, and never a surrogate nor one past `0x10FFFF`, so encoding the code point gives back
exactly the bytes it was read from (`itemBytes_firstItem`); the arithmetic of each length is one
lemma (`utf8EncodeChar_two` and its siblings).

Two consequences are used where text is read back: trimming blanks leaves a byte string whose
first and last items are not blank (`trimBlankBytes_eq_self`), and a text of ASCII characters
is read from its bytes one character per byte (`utf8Items_toUTF8_ascii`, `lossyText_toUTF8_ascii`).
-/

namespace Decimation.Text

/-! ## Encoding characters -/

theorem toList_toUTF8 (s : String) :
    s.toUTF8.toList = s.toList.flatMap String.utf8EncodeChar := by
  rw [← String.ofList_toList (s := s), String.toList_ofList]
  show (String.ofList s.toList).toByteArray.toList = _
  rw [String.toByteArray_ofList, ByteArray.toList_eq]
  simp [List.utf8Encode]

theorem toList_toUTF8_singleton (c : Char) :
    (String.singleton c).toUTF8.toList = String.utf8EncodeChar c := by
  rw [toList_toUTF8, String.toList_singleton, List.flatMap_singleton]

theorem toNat_and_mask (b m : UInt8) (n : Nat) (hm : m.toNat = 2 ^ n - 1) :
    (b &&& m).toNat = b.toNat % 2 ^ n := by
  rw [UInt8.toNat_and, hm, Nat.and_two_pow_sub_one_eq_mod]

theorem low6_eq (b : UInt8) : low6 b = b.toNat % 64 := toNat_and_mask b 0x3F 6 rfl

/-- A number that is a scalar value is the code of its character. -/
theorem toNat_ofNat_of_valid {n : Nat} (h : n < 0xD800 ∨ (0xDFFF < n ∧ n < 0x110000)) :
    (Char.ofNat n).val.toNat = n := by
  have := Char.toNat_ofNat n
  rw [if_pos h] at this
  exact this

theorem utf8EncodeChar_one {b0 : UInt8} (h0 : b0.toNat < 0x80) :
    String.utf8EncodeChar (Char.ofNat b0.toNat) = [b0] := by
  have hv := toNat_ofNat_of_valid (n := b0.toNat) (.inl (by omega))
  unfold String.utf8EncodeChar
  rw [hv, if_pos (by omega), List.cons.injEq]
  exact ⟨(UInt8.ofNat_eq_iff_mod_eq_toNat _ _).mpr (by omega), rfl⟩

theorem utf8EncodeChar_two {b0 b1 : UInt8} (h0 : 0xC2 ≤ b0.toNat) (h0' : b0.toNat < 0xE0)
    (h1 : 0x80 ≤ b1.toNat) (h1' : b1.toNat ≤ 0xBF) :
    String.utf8EncodeChar (Char.ofNat ((b0 &&& 0x1F).toNat * 64 + low6 b1)) = [b0, b1] := by
  rw [low6_eq, toNat_and_mask b0 0x1F 5 rfl]
  have hv := toNat_ofNat_of_valid (n := b0.toNat % 2 ^ 5 * 64 + b1.toNat % 64) (.inl (by omega))
  unfold String.utf8EncodeChar
  rw [hv, if_neg (by omega), if_pos (by omega)]
  simp only [List.cons.injEq, and_true]
  constructor <;> apply (UInt8.ofNat_eq_iff_mod_eq_toNat _ _).mpr <;> omega

/-- Three bytes encode a code point from `0x800` on that is no surrogate: the second byte is
at least `0xA0` after `0xE0`, and at most `0x9F` after `0xED`. -/
theorem utf8EncodeChar_three {b0 b1 b2 : UInt8} (h0 : 0xE0 ≤ b0.toNat) (h0' : b0.toNat < 0xF0)
    (h1 : 0x80 ≤ b1.toNat) (h1' : b1.toNat ≤ 0xBF) (h2 : 0x80 ≤ b2.toNat) (h2' : b2.toNat ≤ 0xBF)
    (hshort : b0.toNat = 0xE0 → 0xA0 ≤ b1.toNat) (hsurr : b0.toNat = 0xED → b1.toNat ≤ 0x9F) :
    String.utf8EncodeChar (Char.ofNat ((b0 &&& 0x0F).toNat * 4096 + low6 b1 * 64 + low6 b2)) =
      [b0, b1, b2] := by
  rw [low6_eq, low6_eq, toNat_and_mask b0 0x0F 4 rfl]
  have hv := toNat_ofNat_of_valid
    (n := b0.toNat % 2 ^ 4 * 4096 + b1.toNat % 64 * 64 + b2.toNat % 64) (by omega)
  unfold String.utf8EncodeChar
  rw [hv, if_neg (by omega), if_neg (by omega), if_pos (by omega)]
  simp only [List.cons.injEq, and_true]
  refine ⟨?_, ?_, ?_⟩ <;> apply (UInt8.ofNat_eq_iff_mod_eq_toNat _ _).mpr <;> omega

/-- Four bytes encode a code point from `0x10000` to `0x10FFFF`: the second byte is at least
`0x90` after `0xF0`, and at most `0x8F` after `0xF4`. -/
theorem utf8EncodeChar_four {b0 b1 b2 b3 : UInt8} (h0 : 0xF0 ≤ b0.toNat) (h0' : b0.toNat ≤ 0xF4)
    (h1 : 0x80 ≤ b1.toNat) (h1' : b1.toNat ≤ 0xBF) (h2 : 0x80 ≤ b2.toNat) (h2' : b2.toNat ≤ 0xBF)
    (h3 : 0x80 ≤ b3.toNat) (h3' : b3.toNat ≤ 0xBF)
    (hshort : b0.toNat = 0xF0 → 0x90 ≤ b1.toNat) (hmax : b0.toNat = 0xF4 → b1.toNat ≤ 0x8F) :
    String.utf8EncodeChar (Char.ofNat ((b0 &&& 0x07).toNat * 262144 + low6 b1 * 4096 +
      low6 b2 * 64 + low6 b3)) = [b0, b1, b2, b3] := by
  rw [low6_eq, low6_eq, low6_eq, toNat_and_mask b0 0x07 3 rfl]
  have hv := toNat_ofNat_of_valid (n := b0.toNat % 2 ^ 3 * 262144 + b1.toNat % 64 * 4096 +
    b2.toNat % 64 * 64 + b3.toNat % 64) (by omega)
  unfold String.utf8EncodeChar
  rw [hv, if_neg (by omega), if_neg (by omega), if_neg (by omega)]
  simp only [List.cons.injEq, and_true]
  refine ⟨?_, ?_, ?_, ?_⟩ <;> apply (UInt8.ofNat_eq_iff_mod_eq_toNat _ _).mpr <;> omega

/-! ## Decoding, then encoding -/

@[simp]
theorem itemBytes_nil : itemBytes [] = [] := rfl

theorem itemBytes_cons (i : Utf8Item) (is : List Utf8Item) :
    itemBytes (i :: is) = itemBytes [i] ++ itemBytes is := by
  simp [itemBytes]

@[simp]
theorem itemBytes_char (c : Nat) : itemBytes [.char c] = String.utf8EncodeChar (Char.ofNat c) := by
  simp only [itemBytes, List.flatMap_cons, List.flatMap_nil, List.append_nil]
  exact toList_toUTF8_singleton _

@[simp]
theorem itemBytes_stray (b : UInt8) : itemBytes [.stray b] = [b] := by
  simp [itemBytes]

/-- The first item of a byte string, written back, is the bytes it was read from. -/
theorem itemBytes_firstItem (b0 : UInt8) (rest : List UInt8) :
    itemBytes [(firstItem b0 rest).1] = b0 :: rest.take (firstItem b0 rest).2 := by
  have hb0 := b0.toNat_lt
  unfold firstItem
  by_cases h1 : b0 < 0x80
  · rw [if_pos h1, itemBytes_char, List.take_zero]
    exact utf8EncodeChar_one (UInt8.lt_iff_toNat_lt.mp h1)
  rw [if_neg h1]
  by_cases h2 : (b0 < 0xC2 || b0 > 0xF4) = true
  · rw [if_pos h2]
    rfl
  rw [if_neg h2]
  have hlead : 0xC2 ≤ b0.toNat ∧ b0.toNat ≤ 0xF4 := by simpa [UInt8.lt_iff_toNat_lt] using h2
  -- the range allowed to the second byte depends on the first
  generalize hlo : (if b0 = 224 then (160 : UInt8) else if b0 = 240 then 144 else 128) = lo
  generalize hhi : (if b0 = 237 then (159 : UInt8) else if b0 = 244 then 143 else 191) = hi
  have hlo' : 0x80 ≤ lo.toNat ∧ (b0.toNat = 0xE0 → 0xA0 ≤ lo.toNat) ∧
      (b0.toNat = 0xF0 → 0x90 ≤ lo.toNat) := by
    subst hlo
    split_ifs <;> simp_all [UInt8.ext_iff]
  have hhi' : hi.toNat ≤ 0xBF ∧ (b0.toNat = 0xED → hi.toNat ≤ 0x9F) ∧
      (b0.toNat = 0xF4 → hi.toNat ≤ 0x8F) := by
    subst hhi
    split_ifs <;> simp_all [UInt8.ext_iff]
  rcases rest with _ | ⟨b1, rest1⟩
  · rfl
  dsimp only
  by_cases h3 : (!within b1 lo hi) = true
  · rw [if_pos h3]
    rfl
  rw [if_neg h3]
  have hb1 : lo.toNat ≤ b1.toNat ∧ b1.toNat ≤ hi.toNat := by
    simpa [within, UInt8.le_iff_toNat_le] using h3
  by_cases h4 : b0 < 0xE0
  · rw [if_pos h4, itemBytes_char]
    exact utf8EncodeChar_two (by omega) (UInt8.lt_iff_toNat_lt.mp h4) (by omega) (by omega)
  rw [if_neg h4]
  have h4' : 0xE0 ≤ b0.toNat := by simpa [UInt8.lt_iff_toNat_lt] using h4
  rcases rest1 with _ | ⟨b2, rest2⟩
  · rfl
  dsimp only
  by_cases h5 : (!within b2 0x80 0xBF) = true
  · rw [if_pos h5]
    rfl
  rw [if_neg h5]
  have hb2 : 0x80 ≤ b2.toNat ∧ b2.toNat ≤ 0xBF := by
    simpa [within, UInt8.le_iff_toNat_le] using h5
  by_cases h6 : b0 < 0xF0
  · rw [if_pos h6, itemBytes_char]
    exact utf8EncodeChar_three h4' (UInt8.lt_iff_toNat_lt.mp h6) (by omega) (by omega)
      hb2.1 hb2.2 (fun h => by omega) (fun h => by omega)
  rw [if_neg h6]
  have h6' : 0xF0 ≤ b0.toNat := by simpa [UInt8.lt_iff_toNat_lt] using h6
  rcases rest2 with _ | ⟨b3, rest3⟩
  · rfl
  dsimp only
  by_cases h7 : (!within b3 0x80 0xBF) = true
  · rw [if_pos h7]
    rfl
  rw [if_neg h7, itemBytes_char]
  have hb3 : 0x80 ≤ b3.toNat ∧ b3.toNat ≤ 0xBF := by
    simpa [within, UInt8.le_iff_toNat_le] using h7
  exact utf8EncodeChar_four h6' hlead.2 (by omega) (by omega) hb2.1 hb2.2 hb3.1 hb3.2
    (fun h => by omega) (fun h => by omega)

/-- Every byte string is the bytes of its items. -/
theorem itemBytes_utf8Items (bs : List UInt8) : itemBytes (utf8Items bs) = bs := by
  fun_induction utf8Items bs with
  | case1 => rfl
  | case2 b0 rest r ih =>
    rw [itemBytes_cons, ih, itemBytes_firstItem, List.cons_append, List.take_append_drop]

/-- A byte below `0x80` continues no encoding: what follows it does not change the first item. -/
theorem firstItem_append_of_lt (b0 : UInt8) (rest more : List UInt8) {b : UInt8} (hb : b < 0x80) :
    firstItem b0 (rest ++ b :: more) = firstItem b0 rest := by
  have hstop : ∀ lo hi : UInt8, 0x80 ≤ lo.toNat → within b lo hi = false := by
    intro lo hi hlo
    have hb' : b.toNat < 128 := UInt8.lt_iff_toNat_lt.mp hb
    simp only [within, Bool.and_eq_false_iff, decide_eq_false_iff_not, UInt8.le_iff_toNat_le]
    omega
  unfold firstItem
  by_cases h1 : b0 < 0x80
  · rw [if_pos h1, if_pos h1]
  rw [if_neg h1, if_neg h1]
  by_cases h2 : (b0 < 0xC2 || b0 > 0xF4) = true
  · rw [if_pos h2, if_pos h2]
  rw [if_neg h2, if_neg h2]
  generalize hlo : (if b0 = 224 then (160 : UInt8) else if b0 = 240 then 144 else 128) = lo
  generalize (if b0 = 237 then (159 : UInt8) else if b0 = 244 then 143 else 191) = hi
  have hlo' : 0x80 ≤ lo.toNat := by
    subst hlo
    split_ifs <;> decide
  -- the first item reads at most three bytes after `b0`; where `rest` ends first, `b` stops it
  rcases rest with _ | ⟨b1, _ | ⟨b2, _ | ⟨b3, rest⟩⟩⟩
  · simp [hstop lo hi hlo']
  · simp only [List.cons_append, List.nil_append, hstop 0x80 0xBF (by decide)]
    rfl
  · simp only [List.cons_append, List.nil_append, hstop 0x80 0xBF (by decide)]
    rfl
  · rfl

/-! ## Trimming -/

/-- Dropping from the front stops at once when the first element is kept. -/
theorem dropWhile_eq_self_of_head? {α : Type} {p : α → Bool} {l : List α}
    (h : ∀ x ∈ l.head?, p x = false) : l.dropWhile p = l := by
  cases l with
  | nil => rfl
  | cons x l => simp [h x rfl]

/-- Trimming leaves a byte string whose first and last items are not blank. -/
theorem trimBlankBytes_eq_self {bs : List UInt8}
    (hfirst : ∀ i ∈ (utf8Items bs).head?, i.isBlank = false)
    (hlast : ∀ i ∈ (utf8Items bs).getLast?, i.isBlank = false) : trimBlankBytes bs = bs := by
  unfold trimBlankBytes
  rw [dropWhile_eq_self_of_head? hfirst,
    dropWhile_eq_self_of_head? (by simpa [List.head?_reverse] using hlast), List.reverse_reverse,
    itemBytes_utf8Items]

/-! ## ASCII -/

section Ascii

variable {s : String}

theorem utf8EncodeChar_of_lt {c : Char} (h : c.toNat < 0x80) :
    String.utf8EncodeChar c = [UInt8.ofNat c.toNat] := by
  have hv : c.val.toNat ≤ 127 := by
    change c.toNat ≤ 127
    omega
  unfold String.utf8EncodeChar
  rw [if_pos hv]
  rfl

theorem flatMap_utf8EncodeChar_ascii {l : List Char} (h : ∀ c ∈ l, c.toNat < 0x80) :
    l.flatMap String.utf8EncodeChar = l.map fun c => UInt8.ofNat c.toNat := by
  induction l with
  | nil => rfl
  | cons c l ih =>
    rw [List.flatMap_cons, utf8EncodeChar_of_lt (h c List.mem_cons_self),
      ih fun x hx => h x (List.mem_cons_of_mem c hx), List.map_cons, List.singleton_append]

/-- A text of ASCII characters is one byte per character. -/
theorem toList_toUTF8_ascii (h : ∀ c ∈ s.toList, c.toNat < 0x80) :
    s.toUTF8.toList = s.toList.map fun c => UInt8.ofNat c.toNat := by
  rw [toList_toUTF8, flatMap_utf8EncodeChar_ascii h]

theorem utf8Items_ascii {bs : List UInt8} (h : ∀ b ∈ bs, b.toNat < 0x80) :
    utf8Items bs = bs.map fun b => .char b.toNat := by
  induction bs with
  | nil => rw [utf8Items]; rfl
  | cons b bs ih =>
    have hb : b < 0x80 := UInt8.lt_iff_toNat_lt.mpr (h b List.mem_cons_self)
    rw [utf8Items, firstItem, if_pos hb, List.drop_zero, ih fun x hx => h x (List.mem_cons_of_mem b hx)]
    rfl

theorem toNat_ofNat_ascii {c : Char} (h : c.toNat < 0x80) : (UInt8.ofNat c.toNat).toNat = c.toNat :=
  UInt8.toNat_ofNat_of_lt' (Nat.lt_of_lt_of_le h (by decide))

/-- The items of the bytes of an ASCII text are its characters. -/
theorem utf8Items_toUTF8_ascii (h : ∀ c ∈ s.toList, c.toNat < 0x80) :
    utf8Items s.toUTF8.toList = s.toList.map fun c => .char c.toNat := by
  rw [toList_toUTF8_ascii h, utf8Items_ascii, List.map_map]
  · exact List.map_congr_left fun c hc => by simp [toNat_ofNat_ascii (h c hc)]
  · intro b hb
    obtain ⟨c, hc, rfl⟩ := List.mem_map.mp hb
    rw [toNat_ofNat_ascii (h c hc)]
    exact h c hc

theorem isValidUtf8_toUTF8_ascii (h : ∀ c ∈ s.toList, c.toNat < 0x80) :
    isValidUtf8 s.toUTF8.toList = true := by
  rw [isValidUtf8, utf8Items_toUTF8_ascii h]
  simp

theorem lossyText_toUTF8_ascii (h : ∀ c ∈ s.toList, c.toNat < 0x80) :
    lossyText s.toUTF8.toList = s := by
  rw [lossyText, utf8Items_toUTF8_ascii h, List.map_map]
  conv => rhs; rw [← String.ofList_toList (s := s)]
  congr 1
  conv => rhs; rw [← List.map_id s.toList]
  exact List.map_congr_left fun c _ => Char.ofNat_toNat c

end Ascii

end Decimation.Text
