import Mathlib
import Decimation.Csv.Table
import Decimation.Proofs.CsvRecords
import Decimation.Proofs.FloatText
import Decimation.Proofs.Downsampling
/-!
# Reading back a written frame

A frame written with `Frame.toCsv` is read back by `Frame.ofCsv` as the same frame
(`Frame.ofCsv_toCsv`) when it has at least two columns, its first column holds numbers, a
boolean column comes with at least one row, and no column name has a blank character at either
end or a carriage return (`PlainName`). The records come back field for field
(`Csv.readAll_recordBytes`); what remains is that each column is read from its cells as it was
written.

Every cell is a plain text: ASCII characters, none blank and none a carriage return
(`PlainCell`), so its bytes are valid UTF-8, read as the text itself and left alone by trimming.
The text of a number is made of digits, `.`, `e`, the signs and the letters of `NaN` and `Inf`
(`floatChars`); none of them lowers to `t` or `l`, so no number is taken for a truth value, and
the number is read back exactly (`readFloat_floatText`). A boolean column is written as `true`
and `false` and read back as such, provided it is not the first column and has a row: the
reader takes the first column and every column without rows for numbers.
-/

namespace Decimation

open Float.Model Float.Model.UnpackedFloat

/-! ## The characters of a number -/

/-- The characters of the text of a float: digits, the point, the exponent mark, the signs and
the letters of `NaN` and `Inf`. -/
def floatChars : List Char :=
  ['0', '1', '2', '3', '4', '5', '6', '7', '8', '9', '.', 'e', '+', '-', 'N', 'a', 'I', 'n', 'f']

theorem mem_floatChars_of_isDigit {c : Char} (h : c.isDigit = true) : c ∈ floatChars := by
  have h' : 48 ≤ c.val ∧ c.val ≤ 57 := by simpa [Char.isDigit] using h
  have hc : 48 ≤ c.toNat ∧ c.toNat ≤ 57 :=
    ⟨UInt32.le_iff_toNat_le.mp h'.1, UInt32.le_iff_toNat_le.mp h'.2⟩
  have key : ∀ n ∈ List.range' 48 10, Char.ofNat n ∈ floatChars := by decide
  rw [← Char.ofNat_toNat c]
  exact key _ (List.mem_range'.mpr ⟨c.toNat - 48, by omega, by omega⟩)

theorem mem_floatChars_of_isNumberChar {c : Char} (h : Decimal.IsNumberChar c) :
    c ∈ floatChars := by
  rcases h with h | rfl | rfl | rfl | rfl
  · exact mem_floatChars_of_isDigit h
  all_goals decide

/-- A decimal text is made of digits, the point, the exponent mark and the signs. -/
theorem Decimal.DecimalText.isNumberChar {cs : List Char} {v : ℚ} (h : DecimalText cs v) :
    ∀ c ∈ cs, IsNumberChar c := by
  cases h with
  | mk ha hda hdb hep =>
    intro c hc
    rcases List.mem_append.mp hc with hc | hc
    · rcases List.mem_append.mp hc with hc | hc
      · exact .inl (hda c hc)
      · split at hc
        · simp at hc
        · rcases List.mem_cons.mp hc with rfl | hc
          · exact .inr (.inl rfl)
          · exact .inl (hdb c hc)
    · exact hep.isNumberChar c hc

/-- The text of a float is made of `floatChars`. -/
theorem floatText_chars (f : Float) : ∀ c ∈ (floatText f).toList, c ∈ floatChars := by
  unfold floatText
  by_cases hnan : f.isNaN = true
  · rw [if_pos hnan]
    simp [floatChars]
  rw [if_neg hnan]
  dsimp only
  by_cases hinf : f.isInf = true
  · rw [if_pos hinf]
    split <;> simp [floatChars]
  rw [if_neg hinf, signed_text, String.toList_ofList]
  -- after the sign comes the magnitude: `0`, or the general text of the shortest digits
  suffices h : ∀ c ∈ (magnitudeText f.toBits).toList, c ∈ floatChars by
    intro c hc
    rcases List.mem_append.mp hc with hc | hc
    · split at hc <;> simp_all [floatChars]
    · exact h c hc
  have hbits : f.toModel.unpack = UnpackedFloat.unpack .binary64 f.toBits.toBitVec := rfl
  cases hu : f.toModel.unpack with
  | notANumber => simp [Float.isNaN, Float.Model.isNaN, hu, UnpackedFloat.isNaN] at hnan
  | infinity s => simp [Float.isInf, Float.Model.isInf, hu, UnpackedFloat.isInf] at hinf
  | zero s =>
    rw [magnitudeText, if_pos (ofBits_mantissa_of_zero (hbits ▸ hu))]
    simp [floatChars]
  | finite s m e hm =>
    obtain ⟨hc, he⟩ := canonical_of_unpack_eq (hbits ▸ hu)
    rw [magnitudeText, ofBits_eq_of_unpack (hbits ▸ hu), if_neg hm.ne']
    have htext := Decimal.decimalText_shortest
      (x := ⟨m, e, decide (m = 2 ^ 52 ∧ -1074 < e)⟩) hm rfl hc he
    exact fun c hc => mem_floatChars_of_isNumberChar (htext.isNumberChar c hc)

/-! ## Plain cells -/

/-- Bytes read back as they are written, as a column name or a cell: no blank character at
either end (a byte that encodes no character is not blank) and no carriage return. -/
structure PlainName (name : List UInt8) : Prop where
  first : ∀ i ∈ (Text.utf8Items name).head?, i.isBlank = false
  last : ∀ i ∈ (Text.utf8Items name).getLast?, i.isBlank = false
  noCarriageReturn : Csv.carriageReturn ∉ name

/-- A text a cell holds as it is: ASCII characters, none of them blank and none a carriage
return. -/
structure PlainCell (s : String) : Prop where
  ascii : ∀ c ∈ s.toList, c.toNat < 0x80
  notBlank : ∀ c ∈ s.toList, Text.isBlank c = false
  notCarriageReturn : ∀ c ∈ s.toList, UInt8.ofNat c.toNat ≠ Csv.carriageReturn

namespace PlainCell

variable {s : String}

/-- A text of characters from a list of plain characters is plain. -/
theorem of_chars {cs : List Char} (hascii : ∀ c ∈ cs, c.toNat < 0x80)
    (hblank : ∀ c ∈ cs, Text.isBlank c = false)
    (hcr : ∀ c ∈ cs, UInt8.ofNat c.toNat ≠ Csv.carriageReturn)
    (hs : ∀ c ∈ s.toList, c ∈ cs) : PlainCell s where
  ascii c hc := hascii c (hs c hc)
  notBlank c hc := hblank c (hs c hc)
  notCarriageReturn c hc := hcr c (hs c hc)

variable (h : PlainCell s)
include h

theorem carriageReturn_not_mem : Csv.carriageReturn ∉ s.toUTF8.toList := by
  rw [Text.toList_toUTF8_ascii h.ascii, List.mem_map]
  rintro ⟨c, hc, heq⟩
  exact h.notCarriageReturn c hc heq

/-- The bytes of a plain text are plain: each item is a character of the text, and none is
blank. -/
theorem plainName : PlainName s.toUTF8.toList := by
  have hitems := Text.utf8Items_toUTF8_ascii h.ascii
  have hblank : ∀ c ∈ s.toList, (Text.Utf8Item.char c.toNat).isBlank = false := fun c hc => by
    rw [Text.Utf8Item.isBlank, Char.ofNat_toNat, h.notBlank c hc]
  refine ⟨fun i hi => ?_, fun i hi => ?_, h.carriageReturn_not_mem⟩
  · rw [hitems, List.head?_map] at hi
    obtain ⟨c, hc, rfl⟩ := Option.mem_map.mp hi
    exact hblank c (List.mem_of_mem_head? hc)
  · rw [hitems, List.getLast?_map] at hi
    obtain ⟨c, hc, rfl⟩ := Option.mem_map.mp hi
    exact hblank c (List.mem_of_getLast? hc)

theorem trimBlankBytes_eq : Text.trimBlankBytes s.toUTF8.toList = s.toUTF8.toList :=
  Text.trimBlankBytes_eq_self h.plainName.first h.plainName.last

theorem trimBlank_eq : Text.trimBlank s = s := by
  have hfirst : ∀ c ∈ s.toList.head?, Text.isBlank c = false :=
    fun c hc => h.notBlank c (List.mem_of_mem_head? hc)
  have hlast : ∀ c ∈ s.toList.reverse.head?, Text.isBlank c = false :=
    fun c hc => h.notBlank c (List.mem_reverse.mp (List.mem_of_mem_head? hc))
  rw [Text.trimBlank, Text.trimBlankList, Text.dropWhile_eq_self_of_head? hfirst,
    Text.dropWhile_eq_self_of_head? hlast, List.reverse_reverse, String.ofList_toList]

/-- A plain cell is a truth value when its text, lowered, is `true` or `false`. -/
theorem isTruthCell_eq :
    isTruthCell s.toUTF8.toList = (Text.lower s == "true" || Text.lower s == "false") := by
  simp only [isTruthCell, Text.lossyText_toUTF8_ascii h.ascii, h.trimBlank_eq]

/-- The number a plain cell holds is read from its text. -/
theorem readCell_eq : readCell (Text.trimBlankBytes s.toUTF8.toList) = Decimal.readFloat s := by
  rw [h.trimBlankBytes_eq, readCell, if_pos (Text.isValidUtf8_toUTF8_ascii h.ascii),
    Text.lossyText_toUTF8_ascii h.ascii]

end PlainCell

/-! ## The cells of a column -/

theorem plainCell_floatText (f : Float) : PlainCell (floatText f) := by
  refine PlainCell.of_chars ?_ ?_ ?_ (floatText_chars f) <;>
    simp only [floatChars, List.forall_mem_cons, List.not_mem_nil, IsEmpty.forall_iff,
      implies_true, and_true] <;>
    decide

/-- No number is taken for a truth value: no character of a number lowers to the `t` of `true`
or the `l` of `false`. -/
theorem isTruthCell_floatText (f : Float) : isTruthCell (floatText f).toUTF8.toList = false := by
  have hchars : ∀ c ∈ floatChars, Text.lowerChar c ≠ 't' ∧ Text.lowerChar c ≠ 'l' := by
    simp only [floatChars, List.forall_mem_cons, List.not_mem_nil, IsEmpty.forall_iff,
      implies_true, and_true]
    decide
  have hnot : ∀ x ∈ (Text.lower (floatText f)).toList, x ≠ 't' ∧ x ≠ 'l' := by
    intro x hx
    rw [Text.lower, String.toList_ofList, List.mem_map] at hx
    obtain ⟨c, hc, rfl⟩ := hx
    exact hchars c (floatText_chars f c hc)
  have htrue : Text.lower (floatText f) ≠ "true" := fun h => (hnot 't' (by rw [h]; simp)).1 rfl
  have hfalse : Text.lower (floatText f) ≠ "false" := fun h => (hnot 'l' (by rw [h]; simp)).2 rfl
  rw [(plainCell_floatText f).isTruthCell_eq]
  simp [htrue, hfalse]

theorem readCell_floatText (f : Float) :
    readCell (Text.trimBlankBytes (floatText f).toUTF8.toList) = .ok f := by
  rw [(plainCell_floatText f).readCell_eq, readFloat_floatText]

theorem plainCell_truth (b : Bool) : PlainCell (if b then "true" else "false") := by
  cases b <;> constructor <;> simp <;> decide

theorem isTruthCell_truth (b : Bool) :
    isTruthCell (if b then "true" else "false").toUTF8.toList = true := by
  rw [(plainCell_truth b).isTruthCell_eq]
  cases b <;> decide

theorem readBool_truth (b : Bool) :
    (Decimal.readBool (Text.lossyText (if b then "true" else "false").toUTF8.toList)).getD false =
      b := by
  rw [Text.lossyText_toUTF8_ascii (plainCell_truth b).ascii]
  cases b <;> decide

theorem plainCell_cellText (c : Column) (r : Nat) : PlainCell (Frame.cellText c r) := by
  unfold Frame.cellText
  split
  · exact plainCell_truth _
  · exact plainCell_floatText _

/-! ## Reading a column -/

section MapM

variable {α β ε : Type} {f : α × Nat → Except ε β} {l : List α}

/-- Running `f` on each element paired with its position, counted from `s`, collects the results
`l'` when each run succeeds with its result. -/
theorem mapM_zip_range' (l' : List β) (s : Nat) (hlen : l'.length = l.length)
    (h : ∀ i (hi : i < l.length), f (l[i], s + i) = .ok l'[i]) :
    (l.zip (List.range' s l.length)).mapM f = .ok l' := by
  induction l generalizing l' s with
  | nil =>
    rw [List.length_eq_zero_iff.mp hlen]
    rfl
  | cons a l ih =>
    obtain ⟨b, l', rfl⟩ := List.exists_cons_of_length_eq_add_one hlen
    have h0 : f (a, s) = .ok b := by
      have := h 0 (by simp)
      rwa [List.getElem_cons_zero, List.getElem_cons_zero, Nat.add_zero] at this
    have hrest := ih l' (s + 1) (by simpa using hlen) fun i hi => by
      have := h (i + 1) (by simpa using hi)
      rwa [List.getElem_cons_succ, List.getElem_cons_succ, ← Nat.add_assoc,
        Nat.add_right_comm] at this
    rw [List.length_cons, List.range'_succ, List.zip_cons_cons, List.mapM_cons, h0, ok_bind,
      hrest, ok_bind, pure_eq_ok]

theorem mapM_zip_range (l' : List β) (hlen : l'.length = l.length)
    (h : ∀ i (hi : i < l.length), f (l[i], i) = .ok l'[i]) :
    (l.zip (List.range l.length)).mapM f = .ok l' := by
  rw [List.range_eq_range']
  exact mapM_zip_range' l' 0 hlen fun i hi => by rw [Nat.zero_add]; exact h i hi

end MapM

/-- A column is read back from the rows `R 0`, ..., `R (n - 1)` whose cells at position `c` are
the texts of its values, provided a boolean column is not the first and has a row. -/
theorem readColumn_cells (col : Column) {n : Nat} (hsize : col.size = n) (c : Nat)
    {R : Nat → List (List UInt8)}
    (hcell : ∀ r < n, cellAt (R r) c = (Frame.cellText col r).toUTF8.toList)
    (hkind : col.kind = .bool → 0 < c ∧ 0 < n) :
    readColumn ((List.range n).map R) c col.name.toList = .ok col := by
  obtain ⟨name, vs⟩ := col
  have hname : (⟨name.toList.toArray⟩ : ByteArray) = name := by
    rw [mk_toArray, ByteArray.toList_toByteArray]
  cases vs with
  | bools vs =>
    -- every cell is `true` or `false`, and the column is not the first and has a row
    obtain ⟨hc, hn⟩ := hkind rfl
    have hsz : vs.size = n := hsize
    have hall : ∀ r ∈ (List.range n).map R, isTruthCell (cellAt r c) = true := by
      intro x hx
      obtain ⟨r, hr, rfl⟩ := List.mem_map.mp hx
      rw [hcell r (List.mem_range.mp hr)]
      exact isTruthCell_truth _
    have hvals : ((List.range n).map R).map
        (fun r => (Decimal.readBool (Text.lossyText (cellAt r c))).getD false) =
        (List.range vs.size).map (vs.getD · false) := by
      rw [List.map_map, hsz]
      apply List.map_congr_left
      intro r hr
      rw [Function.comp_apply, hcell r (List.mem_range.mp hr)]
      exact readBool_truth _
    have hcond : (c > 0 && !((List.range n).map R).isEmpty &&
        ((List.range n).map R).all fun r => isTruthCell (cellAt r c)) = true := by
      simp only [Bool.and_eq_true, List.all_eq_true]
      exact ⟨⟨by simpa using hc, by simpa using hn.ne'⟩, hall⟩
    rw [readColumn, if_pos hcond, hvals, toArray_map_getD_range, hname]
    rfl
  | floats vs =>
    -- no cell is a truth value, and each is read as the value written into it
    have hsz : vs.size = n := hsize
    have hcond : (c > 0 && !((List.range n).map R).isEmpty &&
        ((List.range n).map R).all fun r => isTruthCell (cellAt r c)) = false := by
      rcases Nat.eq_zero_or_pos n with rfl | hn
      · simp
      · have h0 : isTruthCell (cellAt (R 0) c) = false := by
          rw [hcell 0 hn]
          exact isTruthCell_floatText _
        have hall : ((List.range n).map R).all (fun r => isTruthCell (cellAt r c)) = false :=
          List.all_eq_false.mpr ⟨R 0, List.mem_map_of_mem (List.mem_range.mpr hn), by simp [h0]⟩
        simp [hall]
    rw [readColumn, if_neg (Bool.eq_false_iff.mp hcond),
      mapM_zip_range vs.toList (by simp [hsz]) fun i hi => ?_, ok_bind, pure_eq_ok, hname,
      Array.toArray_toList]
    · rfl
    · have hi' : i < n := by simpa using hi
      have hi'' : i < vs.toList.length := by simpa [hsz] using hi'
      have hv : vs.toList[i] = vs.getD i 0 := by simp [Array.getD, hsz, hi']
      simp only [List.getElem_map, List.getElem_range]
      have htext : Frame.cellText ⟨name, .floats vs⟩ i = floatText (vs.getD i 0) := rfl
      rw [hcell i hi', hv, htext, readCell_floatText]

/-! ## Reading a frame -/

namespace Frame

/-- The columns of a frame make the frame again. -/
theorem ofColumns_columns (t : Frame) : ofColumns t.columns = .ok t := by
  obtain ⟨cols, rows, hne, huni⟩ := t
  cases cols with
  | nil => exact absurd rfl hne
  | cons c cs =>
    obtain rfl : c.size = rows := huni c List.mem_cons_self
    rw [ofColumns, dif_pos huni]

/-- The records of the document of a frame: the names of the columns, then the cells of each
row. -/
def csvRecords (t : Frame) : List (List (List UInt8)) :=
  t.columns.map (·.name.toList) ::
    (List.range t.rows).map fun r => t.columns.map fun c => (cellText c r).toUTF8.toList

theorem toCsv_eq_flatten (t : Frame) : t.toCsv = (t.csvRecords.map Csv.recordBytes).flatten := by
  rw [toCsv, csvRecords, List.map_cons, List.flatten_cons, List.map_map]
  rfl

/-- Every record of a frame has a field for each column. -/
theorem length_of_mem_csvRecords {t : Frame} {r : List (List UInt8)} (hr : r ∈ t.csvRecords) :
    r.length = t.columns.length := by
  rw [csvRecords] at hr
  rcases List.mem_cons.mp hr with rfl | hr
  · exact List.length_map _
  · obtain ⟨i, -, rfl⟩ := List.mem_map.mp hr
    exact List.length_map _

/-- No field of a frame's records holds a carriage return when no column name does: the cells
are plain. -/
theorem carriageReturn_not_mem_csvRecords {t : Frame}
    (hnames : ∀ c ∈ t.columns, PlainName c.name.toList) {r : List (List UInt8)}
    (hr : r ∈ t.csvRecords) : ∀ f ∈ r, Csv.carriageReturn ∉ f := by
  intro f hf
  rw [csvRecords] at hr
  rcases List.mem_cons.mp hr with rfl | hr
  · obtain ⟨c, hc, rfl⟩ := List.mem_map.mp hf
    exact (hnames c hc).noCarriageReturn
  · obtain ⟨i, -, rfl⟩ := List.mem_map.mp hr
    obtain ⟨c, -, rfl⟩ := List.mem_map.mp hf
    exact (plainCell_cellText c i).carriageReturn_not_mem

/-- A frame with at least two columns, numbers in the first, a row if any column holds
booleans, and plain column names is read back from its document as it is. -/
theorem ofCsv_toCsv (t : Frame) (hcols : 2 ≤ t.columns.length) (hx : t.x.kind = .float64)
    (hbool : 0 < t.rows ∨ ∀ c ∈ t.columns, c.kind = .float64)
    (hnames : ∀ c ∈ t.columns, PlainName c.name.toList) : ofCsv t.toCsv = .ok t := by
  have hread := Csv.readAll_recordBytes hcols t.csvRecords (fun _ => length_of_mem_csvRecords)
    (fun _ => carriageReturn_not_mem_csvRecords hnames)
  rw [← toCsv_eq_flatten] at hread
  rw [ofCsv, hread, Config.mapError_ok, ok_bind, csvRecords]
  dsimp only
  rw [if_neg (by simp; omega), mapM_zip_range t.columns (by simp) ?_, ok_bind, ofColumns_columns,
    Config.mapError_ok]
  intro i hi
  have hi' : i < t.columns.length := by simpa using hi
  have hcol : t.columns[i] ∈ t.columns := List.getElem_mem hi'
  rw [List.getElem_map,
    Text.trimBlankBytes_eq_self (hnames _ hcol).first (hnames _ hcol).last]
  apply readColumn_cells _ (t.uniform _ hcol)
  · intro r hr
    simp [cellAt, List.getD_eq_getElem?_getD, hi']
  · intro hkind
    refine ⟨Nat.pos_of_ne_zero ?_, hbool.resolve_right ?_⟩
    · -- the first column is the x column, which holds numbers
      rintro rfl
      rw [← List.head_eq_getElem t.nonempty] at hkind
      exact absurd (hkind.symm.trans hx) (by decide)
    · intro hall
      rw [hall _ hcol] at hkind
      cases hkind

/-- A frame of a number column, with a negative zero, and a boolean column is read back from its
document. -/
theorem ofCsv_toCsv_numbers_truths : ∃ t : Frame,
    t.columns = [Column.ofFloats "x".toUTF8 #[1.5, -0.0],
      Column.ofBools "on".toUTF8 #[true, false]] ∧
    (2 ≤ t.columns.length ∧ t.x.kind = .float64 ∧
      (0 < t.rows ∨ ∀ c ∈ t.columns, c.kind = .float64) ∧
      ∀ c ∈ t.columns, PlainName c.name.toList) ∧
    ofCsv t.toCsv = .ok t := by
  have hx : PlainCell "x" := by constructor <;> simp <;> decide
  have hon : PlainCell "on" := by constructor <;> simp <;> decide
  let t : Frame := ⟨[Column.ofFloats "x".toUTF8 #[1.5, -0.0],
      Column.ofBools "on".toUTF8 #[true, false]], 2, by simp, by
    intro c hc
    rcases List.mem_pair.mp hc with rfl | rfl <;> rfl⟩
  have hnames : ∀ c ∈ t.columns, PlainName c.name.toList := by
    intro c hc
    rcases List.mem_pair.mp hc with rfl | rfl
    · exact hx.plainName
    · exact hon.plainName
  exact ⟨t, rfl, ⟨by decide, rfl, .inl (by decide), hnames⟩,
    ofCsv_toCsv t (by decide) rfl (.inl (by decide)) hnames⟩

end Frame

end Decimation
