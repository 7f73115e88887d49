import Mathlib
import Decimation.Csv.Read
import Decimation.Csv.Write
import Decimation.Proofs.Utf8
/-!
# Reading back written records

Records written one after another with `recordBytes` are read back by `readAll`, field for field,
when they all have the same number of fields, at least two, and no field holds a carriage return
(`readAll_recordBytes`). Fields that need quotes may hold commas, quotes and line ends.

The reader works on lines, so the proofs follow the bytes through them: `Reads line rest s` says
the reader holds `line`, the rest of its current line, and the lines `rest` after it, and that
these are the bytes `s`. One lemma per step says what a call of `readFields`, `readBare` or
`readQuoted` does on the bytes the writer produces; the run lemmas chain them along the pieces
of a quoted field (`readQuoted_escape`), the fields of a record (`readFields_recordBytes`) and the
records of a document (`readRecords_recordBytes`). Each step takes one unit of fuel and at least
one byte, so the fuel `readAll` gives is more than enough.
-/

namespace Decimation.Csv

/-! ## Lines -/

/-- A line as the reader holds it: bytes ended by a `\n` and holding no other. -/
def IsLine (l : List UInt8) : Prop := ∃ u, l = u ++ [newline] ∧ newline ∉ u

/-- The reader holds the rest `line` of its current line and the lines `rest` after it, and
these are the bytes `s`. -/
structure Reads (line : List UInt8) (rest : List (List UInt8)) (s : List UInt8) : Prop where
  isLine : IsLine line
  lines : ∀ l ∈ rest, IsLine l
  bytes : line ++ rest.flatten = s

/-- The lines `rest` are the bytes `s`, cut after each `\n`. -/
structure Splits (rest : List (List UInt8)) (s : List UInt8) : Prop where
  lines : ∀ l ∈ rest, IsLine l
  bytes : rest.flatten = s

section Lines

variable {line : List UInt8} {rest : List (List UInt8)} {a s : List UInt8}

/-- Bytes before the end of the current line are read from it. -/
theorem Reads.append (h : Reads line rest (a ++ s)) (ha : newline ∉ a) :
    ∃ line', line = a ++ line' ∧ Reads line' rest s := by
  obtain ⟨⟨u, rfl, hu⟩, hrest, hbytes⟩ := h
  rw [List.append_assoc] at hbytes
  rcases List.append_eq_append_iff.mp hbytes with ⟨c, rfl, hc⟩ | ⟨c, rfl, hc⟩
  · -- `a` runs past the bytes of the line before its end: it cannot hold the `\n`
    cases c with
    | nil =>
      refine ⟨[newline], by simp, ⟨[], by simp, by simp⟩, hrest, ?_⟩
      simpa using hc
    | cons x c =>
      obtain ⟨rfl, -⟩ := List.cons.inj hc
      exact absurd (List.mem_append_right u List.mem_cons_self) ha
  · refine ⟨c ++ [newline], by simp, ⟨c, rfl, fun h => hu (List.mem_append_right a h)⟩, hrest, ?_⟩
    rw [hc, List.append_assoc]

/-- A `\n` in the bytes ends the current line. -/
theorem Reads.append_newline (h : Reads line rest (a ++ newline :: s)) (ha : newline ∉ a) :
    line = a ++ [newline] ∧ Splits rest s := by
  obtain ⟨line', rfl, ⟨u, hu, hnu⟩, hrest, hbytes⟩ := h.append ha
  subst hu
  cases u with
  | nil => exact ⟨rfl, hrest, by simpa using hbytes⟩
  | cons x u =>
    obtain ⟨rfl, -⟩ := List.cons.inj hbytes
    exact absurd List.mem_cons_self hnu

/-- The first of the lines that hold bytes. -/
theorem Splits.cons (h : Splits rest s) (hs : s ≠ []) :
    ∃ l ls, rest = l :: ls ∧ Reads l ls s := by
  obtain ⟨hlines, rfl⟩ := h
  cases rest with
  | nil => exact absurd rfl hs
  | cons l ls =>
    exact ⟨l, ls, rfl, hlines l List.mem_cons_self, fun x hx => hlines x (List.mem_cons_of_mem l hx),
      rfl⟩

theorem Splits.eq_nil (h : Splits rest []) : rest = [] := by
  obtain ⟨hlines, hbytes⟩ := h
  cases rest with
  | nil => rfl
  | cons l ls =>
    obtain ⟨u, rfl, -⟩ := hlines l List.mem_cons_self
    simp at hbytes

/-- There are as many lines as `\n`s. -/
theorem Splits.length_eq_count (h : Splits rest s) : rest.length = s.count newline := by
  obtain ⟨hlines, rfl⟩ := h
  induction rest with
  | nil => rfl
  | cons l ls ih =>
    obtain ⟨u, rfl, hu⟩ := hlines l List.mem_cons_self
    rw [List.length_cons, ih fun x hx => hlines x (List.mem_cons_of_mem _ hx), List.flatten_cons,
      List.count_append, List.count_append, List.count_eq_zero_of_not_mem hu,
      List.count_singleton_self]
    omega

end Lines

/-! ## Splitting a document into lines -/

theorem endLine_eq_self {l : List UInt8} (h : carriageReturn ∉ l) : endLine l = l := by
  unfold endLine
  split
  · rename_i a b rest hl
    have hb : b ∈ l := by
      rw [← List.reverse_reverse l, hl]
      simp
    rw [if_neg]
    rintro ⟨-, rfl⟩
    exact h hb
  · rfl

/-- A document without carriage returns that ends with `\n` is cut into its lines. -/
theorem splitLines_splits (doc acc : List UInt8) (hdoc : carriageReturn ∉ doc)
    (hacc : carriageReturn ∉ acc) (hacc' : newline ∉ acc)
    (hend : doc.getLast? = some newline ∨ doc = [] ∧ acc = []) :
    Splits (splitLines doc acc) (acc.reverse ++ doc) := by
  induction doc generalizing acc with
  | nil =>
    have hacc0 : acc = [] := by simpa using hend
    subst hacc0
    exact ⟨by simp [splitLines], rfl⟩
  | cons c rest ih =>
    rw [List.mem_cons, not_or] at hdoc
    by_cases hc : c = newline
    · -- the line ends here
      subst hc
      have hline : endLine (newline :: acc).reverse = acc.reverse ++ [newline] := by
        rw [endLine_eq_self (by simpa using ⟨hacc, by decide⟩), List.reverse_cons]
      have hrest := ih [] hdoc.2 (by simp) (by simp) (by
        cases rest with
        | nil => exact .inr ⟨rfl, rfl⟩
        | cons x xs => exact .inl (by simpa [List.getLast?_cons_cons] using hend))
      rw [splitLines, if_pos rfl, hline]
      refine ⟨?_, ?_⟩
      · intro l hl
        rcases List.mem_cons.mp hl with rfl | hl
        · exact ⟨acc.reverse, rfl, by simpa using hacc'⟩
        · exact hrest.lines l hl
      · rw [List.flatten_cons, hrest.bytes]
        simp
    · -- the byte joins the line
      have hrest : rest.getLast? = some newline := by
        cases rest with
        | nil => simp [hc] at hend
        | cons x xs => simpa [List.getLast?_cons_cons] using hend
      rw [splitLines, if_neg hc]
      have := ih (c :: acc) hdoc.2 (by simpa using ⟨hdoc.1, hacc⟩)
        (by simpa using ⟨Ne.symm hc, hacc'⟩) (.inl hrest)
      simpa using this

/-! ## What the writer writes -/

/-- The bytes of a quoted field between its quotes: each `"` doubled. -/
def escape (f : List UInt8) : List UInt8 := f.flatMap fun b => if b = 34 then [34, 34] else [b]

theorem fieldBytes_of_needsQuotes {f : List UInt8} (h : needsQuotes f = true) :
    fieldBytes f = quoteByte :: (escape f ++ [quoteByte]) := by
  simp [fieldBytes, h, escape, quoteByte]

theorem fieldBytes_of_not_needsQuotes {f : List UInt8} (h : needsQuotes f = false) :
    fieldBytes f = f := by
  simp [fieldBytes, h]

/-- A field written as it is holds no comma, quote or line end, and does not start with a blank
character. -/
theorem plain_of_not_needsQuotes {f : List UInt8} (h : needsQuotes f = false) :
    comma ∉ f ∧ quoteByte ∉ f ∧ newline ∉ f ∧ startsBlank f = false := by
  cases f with
  | nil => simp [startsBlank]
  | cons b f =>
    simp only [needsQuotes, List.isEmpty_cons, Bool.not_false, Bool.true_and, Bool.or_eq_false_iff,
      List.any_eq_false] at h
    obtain ⟨⟨-, hany⟩, hblank⟩ := h
    refine ⟨fun hm => hany _ hm (by simp [comma]), fun hm => hany _ hm (by simp [quoteByte]),
      fun hm => hany _ hm (by simp [newline]), hblank⟩

theorem recordBytes_cons_cons (f g : List UInt8) (fs : List (List UInt8)) :
    recordBytes (f :: g :: fs) = fieldBytes f ++ comma :: recordBytes (g :: fs) := by
  simp [recordBytes, List.intersperse_cons_cons, comma]

theorem recordBytes_singleton (f : List UInt8) : recordBytes [f] = fieldBytes f ++ [newline] := by
  simp [recordBytes, newline]

/-! ## Blanks before a field -/

/-- A line that starts with a character below `0x80` that is not blank has no blanks to skip. -/
theorem blankPrefix_of_lt {b0 : UInt8} (rest : List UInt8) (hb : b0 < 0x80)
    (hblank : Text.isBlank (Char.ofNat b0.toNat) = false) : blankPrefix (b0 :: rest) = 0 := by
  rw [blankPrefix, Text.firstItem, if_pos hb]
  simp [hblank]

theorem blankPrefix_quote (rest : List UInt8) : blankPrefix (quoteByte :: rest) = 0 :=
  blankPrefix_of_lt rest (by decide) (by decide)

theorem blankPrefix_comma (rest : List UInt8) : blankPrefix (comma :: rest) = 0 :=
  blankPrefix_of_lt rest (by decide) (by decide)

/-- The `\n` that ends a line is blank. -/
theorem blankPrefix_newline : blankPrefix [newline] = 1 := by
  rw [blankPrefix, Text.firstItem, if_pos (by decide)]
  simp only [show Text.isBlank (Char.ofNat newline.toNat) = true by decide, if_true, List.drop_zero]
  rw [blankPrefix]

/-- A field that does not start with a blank character is not skipped, whatever follows it after
a byte below `0x80`. -/
theorem blankPrefix_append {f : List UInt8} (hf : f ≠ []) (hs : startsBlank f = false) {b : UInt8}
    (hb : b < 0x80) (more : List UInt8) : blankPrefix (f ++ b :: more) = 0 := by
  obtain ⟨b0, ft, rfl⟩ := List.exists_cons_of_ne_nil hf
  rw [List.cons_append, blankPrefix, Text.firstItem_append_of_lt b0 ft more hb]
  simp only [startsBlank] at hs
  rcases hi : Text.firstItem b0 ft with ⟨_ | _, k⟩
  · rw [hi] at hs
    simp [hs]
  · rfl

/-! ## List helpers -/

section ListHelpers

variable {a : UInt8} {f : List UInt8}

theorem idxOf?_append_cons (rest : List UInt8) (hf : a ∉ f) :
    (f ++ a :: rest).idxOf? a = some f.length := by
  induction f with
  | nil => simp [List.idxOf?_cons]
  | cons x f ih =>
    rw [List.mem_cons, not_or] at hf
    rw [List.cons_append, List.idxOf?_cons, if_neg (Ne.symm hf.1 ∘ fun h => by simpa using h), ih hf.2]
    simp

theorem drop_append_cons (rest : List UInt8) : (f ++ a :: rest).drop (f.length + 1) = rest := by
  rw [List.drop_append, List.drop_eq_nil_of_le (by omega), List.nil_append]
  simp

theorem takeWhile_append_cons {p : UInt8 → Bool} (rest : List UInt8) (hf : ∀ x ∈ f, p x = true)
    (ha : p a = false) : (f ++ a :: rest).takeWhile p = f := by
  rw [List.takeWhile_append_of_pos hf, List.takeWhile_cons_of_neg (by simp [ha]), List.append_nil]

theorem dropWhile_append_cons {p : UInt8 → Bool} (rest : List UInt8) (hf : ∀ x ∈ f, p x = true)
    (ha : p a = false) : (f ++ a :: rest).dropWhile p = a :: rest := by
  rw [List.dropWhile_append_of_pos hf, List.dropWhile_cons_of_neg (by simp [ha])]

/-- The first byte `dropWhile` keeps is one it stops at. -/
theorem dropWhile_eq_cons {p : UInt8 → Bool} {l t : List UInt8} (h : l.dropWhile p = a :: t) :
    p a = false := by
  induction l with
  | nil => cases h
  | cons x l ih =>
    rw [List.dropWhile_cons] at h
    split at h
    · exact ih h
    · rename_i hx
      cases h
      simpa using hx

end ListHelpers

/-! ## One step of the reader -/

section Steps

variable (k : Nat) (cur : Cursor) (p : Place) (fields : Array (List UInt8))

/-- At a field that does not start with a quote and has no blanks before it, the reader reads a
bare field. -/
theorem readFields_bare {line : List UInt8} (hne : line ≠ []) (hq : line.head? ≠ some quoteByte)
    (hb : blankPrefix line = 0) :
    ∃ p', readFields (k + 1) line cur p fields = readBare k line cur p' fields := by
  rw [readFields.eq_2, hb, List.drop_zero]
  cases line with
  | nil => exact absurd rfl hne
  | cons b rest =>
    have hbq : b ≠ quoteByte := fun h => hq (by simp [h])
    simp only [if_neg hbq]
    exact ⟨_, rfl⟩

/-- At a quote, the reader reads a quoted field. -/
theorem readFields_quote (line : List UInt8) :
    ∃ p', readFields (k + 1) (quoteByte :: line) cur p fields = readQuoted k line cur p' fields [] := by
  rw [readFields.eq_2, blankPrefix_quote, List.drop_zero]
  exact ⟨_, rfl⟩

/-- A line end where a field starts is the blank before an empty last field. -/
theorem readFields_newline :
    ∃ p', readFields (k + 1) [newline] cur p fields = readBare k [] cur p' fields := by
  rw [readFields.eq_2, blankPrefix_newline]
  exact ⟨_, rfl⟩

/-- A bare field followed by a comma: the reader takes it and reads on after the comma. -/
theorem readBare_comma {f : List UInt8} (rest : List UInt8) (hc : comma ∉ f) (hq : quoteByte ∉ f) :
    ∃ p', readBare (k + 1) (f ++ comma :: rest) cur p fields =
      readFields k rest cur p' (fields.push f) := by
  have hf : ∀ x ∈ f, decide (x ≠ comma) = true := fun x hx => by
    simpa using fun h : x = comma => hc (h ▸ hx)
  rw [readBare.eq_2, takeWhile_append_cons rest hf (by simp),
    dropWhile_append_cons rest hf (by simp)]
  simp only [List.isEmpty_cons, Bool.false_eq_true, if_false]
  rw [List.idxOf?_eq_none_iff.mpr hq]
  exact ⟨_, rfl⟩

/-- A bare last field: the reader takes it without its line end and ends the record. -/
theorem readBare_newline {f : List UInt8} (hc : comma ∉ f) (hq : quoteByte ∉ f) :
    readBare (k + 1) (f ++ [newline]) cur p fields = .ok (fields.push f, cur) := by
  have hf : ∀ x ∈ f ++ [newline], decide (x ≠ comma) = true := fun x hx => by
    rcases List.mem_append.mp hx with hx | hx
    · simpa using fun h : x = comma => hc (h ▸ hx)
    · simp only [List.mem_singleton] at hx
      subst hx
      decide
  have hdrop : dropNewline (f ++ [newline]) = f := by simp [dropNewline]
  rw [readBare.eq_2, List.takeWhile_eq_self_iff.mpr hf, List.dropWhile_eq_nil_iff.mpr hf]
  simp only [List.isEmpty_nil, if_true, hdrop]
  rw [List.idxOf?_eq_none_iff.mpr hq]

theorem readBare_nil : readBare (k + 1) [] cur p fields = .ok (fields.push [], cur) := by
  rw [readBare.eq_2]
  rfl

variable (text : List UInt8)

/-- A doubled quote inside a quoted field stands for one quote. -/
theorem readQuoted_doubled {g : List UInt8} (rest : List UInt8) (hg : quoteByte ∉ g) :
    ∃ p', readQuoted (k + 1) (g ++ quoteByte :: quoteByte :: rest) cur p fields text =
      readQuoted k rest cur p' fields (text ++ g ++ [quoteByte]) := by
  rw [readQuoted.eq_2, idxOf?_append_cons _ hg]
  simp only [List.take_left', drop_append_cons]
  exact ⟨_, rfl⟩

/-- A quote and a comma end a quoted field that more fields follow. -/
theorem readQuoted_comma {g : List UInt8} (rest : List UInt8) (hg : quoteByte ∉ g) :
    ∃ p', readQuoted (k + 1) (g ++ quoteByte :: comma :: rest) cur p fields text =
      readFields k rest cur p' (fields.push (text ++ g)) := by
  rw [readQuoted.eq_2, idxOf?_append_cons _ hg]
  simp only [List.take_left', drop_append_cons]
  exact ⟨_, rfl⟩

/-- A quote and a line end end a quoted last field, and the record. -/
theorem readQuoted_newline {g : List UInt8} (hg : quoteByte ∉ g) :
    readQuoted (k + 1) (g ++ [quoteByte, newline]) cur p fields text =
      .ok (fields.push (text ++ g), cur) := by
  rw [readQuoted.eq_2, idxOf?_append_cons _ hg]
  simp only [List.take_left', drop_append_cons]
  rfl

/-- A line end inside a quoted field: the field goes on in the next line. -/
theorem readQuoted_nextLine {g : List UInt8} (hg : quoteByte ∉ g) (l : List UInt8)
    (ls : List (List UInt8)) (n : Nat) :
    ∃ p', readQuoted (k + 1) (g ++ [newline]) ⟨l :: ls, n⟩ p fields text =
      readQuoted k l ⟨ls, n + 1⟩ p' fields (text ++ (g ++ [newline])) := by
  have hq : quoteByte ∉ g ++ [newline] := by simpa using ⟨hg, by decide⟩
  have hne : (g ++ [newline]).isEmpty = false := by simp
  rw [readQuoted.eq_2, List.idxOf?_eq_none_iff.mpr hq]
  simp only [hne, Bool.false_eq_true, if_false]
  exact ⟨_, rfl⟩

end Steps

/-! ## Bare fields -/

section Bare

variable (k : Nat) (cur : Cursor) (p : Place) (fields : Array (List UInt8)) {f : List UInt8}

/-- A field written as it is, and the comma after it: the reader takes the field and reads on
after the comma. -/
theorem readFields_plain_comma (hq : needsQuotes f = false) (rest : List UInt8) :
    ∃ p', readFields (k + 2) (f ++ comma :: rest) cur p fields =
      readFields k rest cur p' (fields.push f) := by
  obtain ⟨hc, hqf, -, hs⟩ := plain_of_not_needsQuotes hq
  have hb : blankPrefix (f ++ comma :: rest) = 0 := by
    cases f with
    | nil => exact blankPrefix_comma rest
    | cons b0 ft => exact blankPrefix_append (List.cons_ne_nil b0 ft) hs (by decide) rest
  have hhead : (f ++ comma :: rest).head? ≠ some quoteByte := by
    cases f with
    | nil => simp [comma, quoteByte]
    | cons b0 ft =>
      simp only [List.cons_append, List.head?_cons, ne_eq, Option.some.injEq]
      rintro rfl
      exact hqf List.mem_cons_self
  obtain ⟨p', h1⟩ := readFields_bare (k + 1) cur p fields (by simp) hhead hb
  obtain ⟨p'', h2⟩ := readBare_comma k cur p' fields rest hc hqf
  exact ⟨p'', h1.trans h2⟩

/-- A field written as it is, and the line end after it: the reader takes the field and ends the
record. -/
theorem readFields_plain_newline (hq : needsQuotes f = false) :
    readFields (k + 2) (f ++ [newline]) cur p fields = .ok (fields.push f, cur) := by
  obtain ⟨hc, hqf, -, hs⟩ := plain_of_not_needsQuotes hq
  cases f with
  | nil =>
    -- the line end alone is a blank before an empty field
    obtain ⟨p', h1⟩ := readFields_newline (k + 1) cur p fields
    rw [List.nil_append, h1, readBare_nil]
  | cons b0 ft =>
    have hhead : (b0 :: ft ++ [newline]).head? ≠ some quoteByte := by
      simp only [List.cons_append, List.head?_cons, ne_eq, Option.some.injEq]
      rintro rfl
      exact hqf List.mem_cons_self
    obtain ⟨p', h1⟩ := readFields_bare (k + 1) cur p fields (by simp) hhead
      (blankPrefix_append (List.cons_ne_nil b0 ft) hs (by decide) [])
    rw [h1, readBare_newline k cur p' fields hc hqf]

end Bare

/-! ## Quoted fields -/

section Escape

variable {f : List UInt8}

theorem escape_append (f g : List UInt8) : escape (f ++ g) = escape f ++ escape g :=
  List.flatMap_append

theorem escape_quote_cons (f : List UInt8) :
    escape (quoteByte :: f) = quoteByte :: quoteByte :: escape f := by
  simp [escape, quoteByte]

theorem escape_cons_of_ne {b : UInt8} (hb : b ≠ quoteByte) (f : List UInt8) :
    escape (b :: f) = b :: escape f := by
  simp [escape, show b ≠ 34 from hb]

theorem escape_of_not_mem (hf : quoteByte ∉ f) : escape f = f := by
  induction f with
  | nil => rfl
  | cons b f ih =>
    rw [List.mem_cons, not_or] at hf
    rw [escape_cons_of_ne (Ne.symm hf.1), ih hf.2]

end Escape

/-- Reading the content `f` of a quoted field from after its opening quote, with `text` read
before it: each doubled quote and each line end inside is passed, one step each, and the closing
quote ends the field. A comma after it hands the rest of the line to the next field; a line end
after it ends the record. -/
theorem readQuoted_escape (f : List UInt8) {n : Nat} (fuel : Nat)
    (hfuel : (escape f).length + 1 + n ≤ fuel) {line : List UInt8} (cur : Cursor) {s : List UInt8}
    (hr : Reads line cur.rest (escape f ++ quoteByte :: s)) (p : Place)
    (fields : Array (List UInt8)) (text : List UInt8) :
    (∀ s', s = comma :: s' → ∃ m line' cur' p', n ≤ m ∧ Reads line' cur'.rest s' ∧
      readQuoted fuel line cur p fields text = readFields m line' cur' p' (fields.push (text ++ f))) ∧
    (∀ s', s = newline :: s' → ∃ cur', Splits cur'.rest s' ∧
      readQuoted fuel line cur p fields text = .ok (fields.push (text ++ f), cur')) := by
  -- the induction is on the length of the content; each step passes its first stretch without a
  -- quote or a line end, and the quote or line end after it
  induction hN : f.length using Nat.strong_induction_on generalizing f fuel line cur p text with
  | _ N ih =>
  obtain ⟨k, rfl⟩ : ∃ k, fuel = k + 1 := ⟨fuel - 1, by omega⟩
  obtain ⟨rest, r⟩ := cur
  dsimp only at hr ⊢
  let q : UInt8 → Bool := fun b => decide (b ≠ quoteByte ∧ b ≠ newline)
  have hsplit : f.takeWhile q ++ f.dropWhile q = f := List.takeWhile_append_dropWhile
  have hg : ∀ x ∈ f.takeWhile q, x ≠ quoteByte ∧ x ≠ newline := fun x hx => by
    simpa [q] using List.mem_takeWhile_imp hx
  have hgq : quoteByte ∉ f.takeWhile q := fun h => (hg _ h).1 rfl
  have hgn : newline ∉ f.takeWhile q := fun h => (hg _ h).2 rfl
  generalize f.takeWhile q = g at hsplit hgq hgn
  rcases hd : f.dropWhile q with _ | ⟨b, f'⟩
  · -- no quote and no line end: the closing quote comes next
    rw [hd, List.append_nil] at hsplit
    subst hsplit
    rw [escape_of_not_mem hgq] at hr hfuel
    refine ⟨?_, ?_⟩
    · rintro s' rfl
      rw [show g ++ quoteByte :: comma :: s' = (g ++ [quoteByte, comma]) ++ s' by simp] at hr
      obtain ⟨line', rfl, hr'⟩ := hr.append (by simpa using ⟨hgn, by decide⟩)
      obtain ⟨p', hstep⟩ := readQuoted_comma k ⟨rest, r⟩ p fields text line' hgq
      exact ⟨k, line', ⟨rest, r⟩, p', by omega, hr', by simpa using hstep⟩
    · rintro s' rfl
      rw [show g ++ quoteByte :: newline :: s' = (g ++ [quoteByte]) ++ newline :: s' by simp] at hr
      obtain ⟨rfl, hs'⟩ := hr.append_newline (by simpa using ⟨hgn, by decide⟩)
      exact ⟨⟨rest, r⟩, hs', by simpa using readQuoted_newline k ⟨rest, r⟩ p fields text hgq⟩
  · have hb : ¬ (b ≠ quoteByte ∧ b ≠ newline) := by
      simpa [q] using dropWhile_eq_cons hd
    rw [hd] at hsplit
    subst hsplit
    have hlen : f'.length < N := by
      rw [← hN, List.length_append, List.length_cons]
      omega
    by_cases hbq : b = quoteByte
    · -- a doubled quote
      subst hbq
      rw [escape_append, escape_quote_cons, escape_of_not_mem hgq] at hr hfuel
      rw [show g ++ quoteByte :: quoteByte :: escape f' ++ quoteByte :: s =
        (g ++ [quoteByte, quoteByte]) ++ (escape f' ++ quoteByte :: s) by simp] at hr
      obtain ⟨line', rfl, hr'⟩ := hr.append (by simpa using ⟨hgn, by decide⟩)
      obtain ⟨p', hstep⟩ := readQuoted_doubled k ⟨rest, r⟩ p fields text line' hgq
      have hk : (escape f').length + 1 + n ≤ k := by
        simp only [List.length_append, List.length_cons] at hfuel
        omega
      obtain ⟨h1, h2⟩ := ih f'.length hlen f' k hk ⟨rest, r⟩ hr' p'
        (text ++ g ++ [quoteByte]) rfl
      simp only [List.append_assoc, List.cons_append, List.nil_append] at h1 h2 hstep ⊢
      rw [hstep]
      exact ⟨h1, h2⟩
    · -- a line end: the field goes on in the next line
      have hbn : b = newline := by
        by_contra hbn
        exact hb ⟨hbq, hbn⟩
      subst hbn
      rw [escape_append, escape_cons_of_ne hbq, escape_of_not_mem hgq] at hr hfuel
      rw [show g ++ newline :: escape f' ++ quoteByte :: s =
        g ++ newline :: (escape f' ++ quoteByte :: s) by simp] at hr
      obtain ⟨rfl, hs⟩ := hr.append_newline hgn
      obtain ⟨l, ls, rfl, hr'⟩ := hs.cons (by simp)
      obtain ⟨p', hstep⟩ := readQuoted_nextLine k p fields text hgq l ls r
      have hk : (escape f').length + 1 + n ≤ k := by
        simp only [List.length_append, List.length_cons] at hfuel
        omega
      obtain ⟨h1, h2⟩ := ih f'.length hlen f' k hk ⟨ls, r + 1⟩ hr' p'
        (text ++ (g ++ [newline])) rfl
      simp only [List.append_assoc, List.cons_append, List.nil_append] at h1 h2 hstep ⊢
      rw [hstep]
      exact ⟨h1, h2⟩

/-! ## Records -/

/-- The fields `fs` of a record, read from the start of the first of them: they are taken in
order, and the reader stops after the line end of the record. -/
theorem readFields_recordBytes (fs : List (List UInt8)) (hfs : fs ≠ []) (fuel : Nat)
    (hfuel : 2 * (recordBytes fs).length ≤ fuel) {line : List UInt8} (cur : Cursor)
    {s : List UInt8} (hr : Reads line cur.rest (recordBytes fs ++ s)) (p : Place)
    (fields : Array (List UInt8)) :
    ∃ cur', Splits cur'.rest s ∧
      readFields fuel line cur p fields = .ok (fields ++ fs.toArray, cur') := by
  -- the induction is on the fields; each is written as it is or in quotes
  induction fs generalizing fuel line cur p fields with
  | nil => exact absurd rfl hfs
  | cons f fs ih =>
    cases fs with
    | nil =>
      rw [recordBytes_singleton] at hr hfuel
      cases hq : needsQuotes f
      · -- the last field, written as it is
        obtain ⟨-, -, hn, -⟩ := plain_of_not_needsQuotes hq
        rw [fieldBytes_of_not_needsQuotes hq, List.append_assoc, List.singleton_append] at hr
        rw [fieldBytes_of_not_needsQuotes hq] at hfuel
        obtain ⟨rfl, hs⟩ := hr.append_newline hn
        obtain ⟨k, rfl⟩ : ∃ k, fuel = k + 2 := ⟨fuel - 2, by simp at hfuel; omega⟩
        refine ⟨cur, hs, ?_⟩
        rw [readFields_plain_newline k cur p fields hq]
        simp
      · -- the last field, in quotes
        rw [fieldBytes_of_needsQuotes hq] at hr hfuel
        rw [show quoteByte :: (escape f ++ [quoteByte]) ++ [newline] ++ s =
          [quoteByte] ++ (escape f ++ quoteByte :: newline :: s) by simp] at hr
        obtain ⟨line₁, rfl, hr₁⟩ := hr.append (by decide)
        obtain ⟨k, rfl⟩ : ∃ k, fuel = k + 1 := ⟨fuel - 1, by simp at hfuel; omega⟩
        obtain ⟨p', h1⟩ := readFields_quote k cur p fields line₁
        obtain ⟨-, h2⟩ := readQuoted_escape f (n := 0) k (by simp at hfuel; omega) cur hr₁ p'
          fields []
        obtain ⟨cur', hs, h3⟩ := h2 s rfl
        refine ⟨cur', hs, ?_⟩
        rw [List.singleton_append, h1, h3]
        simp
    | cons g fs =>
      rw [recordBytes_cons_cons] at hr hfuel
      cases hq : needsQuotes f
      · -- a field written as it is, a comma and the other fields
        obtain ⟨-, -, hn, -⟩ := plain_of_not_needsQuotes hq
        rw [fieldBytes_of_not_needsQuotes hq] at hr hfuel
        rw [show f ++ comma :: recordBytes (g :: fs) ++ s =
          (f ++ [comma]) ++ (recordBytes (g :: fs) ++ s) by simp] at hr
        obtain ⟨line', rfl, hr'⟩ := hr.append (by simpa using ⟨hn, by decide⟩)
        obtain ⟨k, rfl⟩ : ∃ k, fuel = k + 2 := ⟨fuel - 2, by simp at hfuel; omega⟩
        obtain ⟨p', h1⟩ := readFields_plain_comma k cur p fields hq line'
        simp only [List.length_append, List.length_cons] at hfuel
        obtain ⟨cur', hs, h2⟩ := ih (List.cons_ne_nil g fs) k (by omega) _ hr' p'
          (fields.push f)
        refine ⟨cur', hs, ?_⟩
        rw [show (f ++ [comma]) ++ line' = f ++ comma :: line' by simp, h1, h2]
        simp
      · -- a field in quotes, a comma and the other fields
        rw [fieldBytes_of_needsQuotes hq] at hr hfuel
        rw [show quoteByte :: (escape f ++ [quoteByte]) ++ comma :: recordBytes (g :: fs) ++ s =
          [quoteByte] ++ (escape f ++ quoteByte :: comma :: (recordBytes (g :: fs) ++ s)) by
            simp] at hr
        obtain ⟨line₁, rfl, hr₁⟩ := hr.append (by decide)
        obtain ⟨k, rfl⟩ : ∃ k, fuel = k + 1 := ⟨fuel - 1, by simp at hfuel; omega⟩
        obtain ⟨p', h1⟩ := readFields_quote k cur p fields line₁
        simp only [List.length_append, List.length_cons] at hfuel
        obtain ⟨h2, -⟩ := readQuoted_escape f (n := 2 * (recordBytes (g :: fs)).length) k
          (by omega) cur hr₁ p' fields []
        obtain ⟨m, line', cur', p'', hm, hr', h3⟩ := h2 _ rfl
        obtain ⟨cur'', hs, h4⟩ := ih (List.cons_ne_nil g fs) _ hm _ hr' p'' (fields.push ([] ++ f))
        refine ⟨cur'', hs, ?_⟩
        rw [List.singleton_append, h1, h3, h4]
        simp

/-- A record of at least two fields does not start with a line end, so its first line is never
skipped as empty. -/
theorem head?_recordBytes {r : List (List UInt8)} (hr : 2 ≤ r.length) :
    (recordBytes r).head? ≠ some newline := by
  obtain ⟨f, g, fs, rfl⟩ : ∃ f g fs, r = f :: g :: fs := by
    rcases r with _ | ⟨f, _ | ⟨g, fs⟩⟩
    · simp at hr
    · simp at hr
    · exact ⟨f, g, fs, rfl⟩
  rw [recordBytes_cons_cons]
  cases hq : needsQuotes f
  · obtain ⟨-, -, hn, -⟩ := plain_of_not_needsQuotes hq
    rw [fieldBytes_of_not_needsQuotes hq]
    cases f with
    | nil => simp [comma, newline]
    | cons b f =>
      simp only [List.cons_append, List.head?_cons, ne_eq, Option.some.injEq]
      rintro rfl
      exact hn List.mem_cons_self
  · rw [fieldBytes_of_needsQuotes hq]
    simp [quoteByte, newline]

/-- Records of `w` fields each, at least two, read from the start of a line: each is read in
turn, and the reader stops at the end of the bytes. -/
theorem readRecords_recordBytes (steps : Nat) {w : Nat} (hw : 2 ≤ w) (rs : List (List (List UInt8)))
    (hlen : ∀ r ∈ rs, r.length = w) (hsteps : ∀ r ∈ rs, 2 * (recordBytes r).length ≤ steps)
    (fuel : Nat) (hfuel : rs.length < fuel) (cur : Cursor)
    (hcur : Splits cur.rest (rs.map recordBytes).flatten) (width : Option Nat)
    (hwidth : width = none ∨ width = some w) :
    readRecords steps fuel cur width = .ok rs := by
  induction rs generalizing fuel cur width with
  | nil =>
    obtain ⟨k, rfl⟩ : ∃ k, fuel = k + 1 := ⟨fuel - 1, by simp at hfuel; omega⟩
    obtain ⟨rest, n⟩ := cur
    obtain rfl : rest = [] := hcur.eq_nil
    rw [readRecords.eq_2, nextLine.eq_1]
    rfl
  | cons r rs ih =>
    obtain ⟨k, rfl⟩ : ∃ k, fuel = k + 1 := ⟨fuel - 1, by simp at hfuel; omega⟩
    obtain ⟨rest, n⟩ := cur
    rw [List.map_cons, List.flatten_cons] at hcur
    have hne : recordBytes r ++ (rs.map recordBytes).flatten ≠ [] := by simp [recordBytes]
    obtain ⟨l, ls, rfl, hl⟩ := hcur.cons hne
    have hrlen : r.length = w := hlen r List.mem_cons_self
    have hempty : isEmptyLine l = false := by
      obtain ⟨u, rfl, -⟩ := hl.isLine
      have hhead := head?_recordBytes (r := r) (by omega)
      have hbytes := hl.bytes
      cases u with
      | nil =>
        cases hrb : recordBytes r with
        | nil => simp [recordBytes] at hrb
        | cons x xs =>
          rw [hrb] at hbytes hhead
          simp only [List.nil_append, List.cons_append, List.cons.injEq] at hbytes
          exact (hhead (by rw [← hbytes.1]; rfl)).elim
      | cons x u => simp [isEmptyLine]
    obtain ⟨cur', hs, hread⟩ := readFields_recordBytes r (by rintro rfl; simp at hrlen; omega)
      _ (hsteps r List.mem_cons_self) ⟨ls, n + 1⟩ hl ⟨n + 1, n + 1, 1⟩ #[]
    have hrest := ih (fun x hx => hlen x (List.mem_cons_of_mem r hx))
      (fun x hx => hsteps x (List.mem_cons_of_mem r hx)) k (by simp at hfuel; omega) _ hs
      (some w) (.inr rfl)
    have hsize : (#[] ++ r.toArray).size = w := by simp [hrlen]
    rw [readRecords.eq_2, nextLine.eq_2, if_neg (by simp [hempty])]
    simp only [hread, bind, Except.bind]
    rcases hwidth with rfl | rfl
    · rw [Option.getD_none, hsize, hrest]
      simp [pure, Except.pure]
    · simp only [hsize, ne_eq, not_true_eq_false, if_false, Option.getD_some, hrest]
      simp [pure, Except.pure]

/-! ## Documents -/

theorem mem_escape {x : UInt8} {f : List UInt8} (h : x ∈ escape f) : x ∈ f ∨ x = quoteByte := by
  simp only [escape, List.mem_flatMap] at h
  obtain ⟨b, hb, hx⟩ := h
  split at hx
  · simp only [List.mem_cons, List.not_mem_nil, or_false, or_self] at hx
    exact .inr hx
  · simp only [List.mem_singleton] at hx
    exact .inl (hx ▸ hb)

/-- The writer adds commas, quotes and line ends, never a carriage return. -/
theorem carriageReturn_not_mem_recordBytes {r : List (List UInt8)}
    (hr : ∀ f ∈ r, carriageReturn ∉ f) : carriageReturn ∉ recordBytes r := by
  have hfield : ∀ f ∈ r, carriageReturn ∉ fieldBytes f := by
    intro f hf hmem
    unfold fieldBytes at hmem
    split at hmem
    · simp only [List.cons_append, List.mem_cons, List.mem_append] at hmem
      rcases hmem with h | h | h
      · exact absurd h (by decide)
      · rcases mem_escape (by simpa [escape] using h) with h | h
        · exact hr f hf h
        · exact absurd h (by decide)
      · exact absurd h (by decide)
    · exact hr f hf hmem
  induction r with
  | nil => simpa [recordBytes] using (by decide : carriageReturn ≠ 10)
  | cons f fs ih =>
    cases fs with
    | nil =>
      rw [recordBytes_singleton, List.mem_append, not_or]
      exact ⟨hfield f List.mem_cons_self, by simpa using (by decide : carriageReturn ≠ newline)⟩
    | cons g fs =>
      rw [recordBytes_cons_cons, List.mem_append, List.mem_cons, not_or, not_or]
      exact ⟨hfield f List.mem_cons_self, by decide,
        ih (fun x hx => hr x (List.mem_cons_of_mem f hx))
          (fun x hx => hfield x (List.mem_cons_of_mem f hx))⟩

theorem getLast?_recordBytes (r : List (List UInt8)) : (recordBytes r).getLast? = some newline := by
  simp [recordBytes, newline]

/-- Records of `w` fields each, at least two, none holding a carriage return, written one after
another, are read back. -/
theorem readAll_recordBytes {w : Nat} (hw : 2 ≤ w) (rs : List (List (List UInt8)))
    (hlen : ∀ r ∈ rs, r.length = w) (hcr : ∀ r ∈ rs, ∀ f ∈ r, carriageReturn ∉ f) :
    readAll (rs.map recordBytes).flatten = .ok rs := by
  have hdoc : carriageReturn ∉ (rs.map recordBytes).flatten := by
    simp only [List.mem_flatten, List.mem_map, not_exists, not_and]
    rintro l ⟨r, hr, rfl⟩
    exact carriageReturn_not_mem_recordBytes (hcr r hr)
  have hend : (rs.map recordBytes).flatten.getLast? = some newline ∨
      (rs.map recordBytes).flatten = [] ∧ ([] : List UInt8) = [] := by
    induction rs with
    | nil => exact .inr ⟨rfl, rfl⟩
    | cons r rs ih =>
      left
      rw [List.map_cons, List.flatten_cons, List.getLast?_append]
      rcases ih (fun x hx => hlen x (List.mem_cons_of_mem r hx))
        (fun x hx => hcr x (List.mem_cons_of_mem r hx))
        (fun h => hdoc (by simp only [List.map_cons, List.flatten_cons]; exact List.mem_append_right _ h))
        with h | ⟨h, -⟩
      · rw [h]
        rfl
      · rw [h, getLast?_recordBytes]
        rfl
  have hsplit := splitLines_splits _ [] hdoc (by simp) (by simp) hend
  rw [List.reverse_nil, List.nil_append] at hsplit
  -- every record ends with a line end, so there are at least as many lines as records
  have hcount : rs.length ≤ (rs.map recordBytes).flatten.count newline := by
    clear hsplit hend hdoc
    induction rs with
    | nil => simp
    | cons r rs ih =>
      have hr : 0 < (recordBytes r).count newline :=
        List.count_pos_iff.mpr (List.mem_of_getLast? (getLast?_recordBytes r))
      rw [List.map_cons, List.flatten_cons, List.count_append, List.length_cons]
      have := ih (fun x hx => hlen x (List.mem_cons_of_mem r hx))
        (fun x hx => hcr x (List.mem_cons_of_mem r hx))
      omega
  unfold readAll
  dsimp only
  apply readRecords_recordBytes _ hw rs hlen
  · intro r hr
    have := (List.infix_of_mem_flatten (List.mem_map_of_mem (f := recordBytes) hr)).length_le
    omega
  · rw [hsplit.length_eq_count]
    omega
  · exact hsplit
  · exact .inl rfl

end Decimation.Csv
