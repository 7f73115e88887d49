import Mathlib
import Decimation.Proofs.Transform
import Decimation.Proofs.FloatOrder
/-!
# Taking rows out of a frame, by index and by x-range

`Frame.HoldsRows g f rows` is the contract both ways of taking rows meet: `g` has one row per
entry of `rows`, and column by column the name, the kind and the values of `f` at those rows, in
that order.

Selection by index accepts a list exactly when every entry names a row, and otherwise reports
the first entry that does not (`Frame.selectRows_eq_error_iff`); two selections in a row are one
selection through the composed indices (`Frame.selectRows_selectRows`).

Restriction to a valid x-range keeps, in order, the rows whose x value the range keeps
(`Frame.sliceX_eq`): those it contains, or every row for `[-Inf, +Inf)`, which returns the frame as
it is, rows whose x is NaN included. Two restrictions in a row keep the rows both ranges keep
(`Frame.sliceX_sliceX`), so they commute, and they are one restriction to the meet of the ranges
when that is a valid range.
-/

namespace Decimation

/-! ## Frames that hold given rows of another -/

namespace Column

/-- Column `d` holds the values of column `c` at `rows`, in that order, under the same name and
kind. Values are compared as floats, booleans widened, which loses nothing as the kinds agree. -/
structure ReadsAt (d c : Column) (rows : List Nat) : Prop where
  name_eq : d.name = c.name
  kind_eq : d.kind = c.kind
  size_eq : d.size = rows.length
  floatAt_eq : ∀ l (hl : l < rows.length), d.floatAt l = c.floatAt (rows.get ⟨l, hl⟩)

theorem readsAt_take (c : Column) (rows : List Nat) : (c.take rows).ReadsAt c rows :=
  ⟨c.name_take rows, c.kind_take rows, c.size_take rows, c.floatAt_take rows⟩

end Column

namespace Frame

/-- Frame `g` holds the rows `rows` of frame `f`: one row per entry, and each column of `g` holds
the values of the column of `f` in its place at those rows. -/
structure HoldsRows (g f : Frame) (rows : List Nat) : Prop where
  rows_eq : g.rows = rows.length
  columns : List.Forall₂ (fun d c => d.ReadsAt c rows) g.columns f.columns

theorem holdsRows_take (f : Frame) (rows : List Nat) : (f.take rows).HoldsRows f rows where
  rows_eq := rfl
  columns := by
    rw [take, List.forall₂_map_left_iff]
    exact List.forall₂_same.mpr fun c _ => c.readsAt_take rows

/-! ## Selecting rows by index -/

/-- The first entry, counted from position `pos`, that names no row of a frame with `n` rows is
reported with its position; entries before it all name rows. -/
theorem badRow_eq_some_iff {n : Nat} {e : FrameError} {rows : List Int} {pos : Nat} :
    badRow n rows pos = some e ↔ ∃ (pre : List Int) (r : Int) (post : List Int), rows = pre ++ r :: post ∧
      (∀ x ∈ pre, 0 ≤ x ∧ x < n) ∧ ¬ (0 ≤ r ∧ r < n) ∧
      e = .rowOutOfRange (pos + pre.length) r n := by
  induction rows generalizing pos with
  | nil => simp [badRow]
  | cons x xs ih =>
    by_cases hx : 0 ≤ x ∧ x < n
    · -- `x` names a row: the first bad entry lies in `xs`, one position further on
      rw [badRow, if_pos hx, ih]
      constructor
      · rintro ⟨pre, r, post, rfl, hpre, hr, rfl⟩
        refine ⟨x :: pre, r, post, rfl, ?_, hr, ?_⟩
        · intro z hz
          rcases List.mem_cons.mp hz with rfl | hz
          · exact hx
          · exact hpre z hz
        · simp only [List.length_cons]
          congr 1
          omega
      · rintro ⟨pre, r, post, heq, hpre, hr, rfl⟩
        cases pre with
        | nil =>
          obtain ⟨rfl, -⟩ := List.cons.inj heq
          exact absurd hx hr
        | cons y pre =>
          obtain ⟨rfl, rfl⟩ := List.cons.inj heq
          refine ⟨pre, r, post, rfl, fun z hz => hpre z (List.mem_cons_of_mem _ hz), hr, ?_⟩
          simp only [List.length_cons]
          congr 1
          omega
    · -- `x` names no row: it is the first bad entry
      rw [badRow, if_neg hx, Option.some.injEq]
      constructor
      · rintro rfl
        exact ⟨[], x, xs, rfl, by simp, hx, by simp⟩
      · rintro ⟨pre, r, post, heq, hpre, hr, rfl⟩
        cases pre with
        | nil =>
          obtain ⟨rfl, rfl⟩ := List.cons.inj heq
          simp
        | cons y pre =>
          obtain ⟨rfl, -⟩ := List.cons.inj heq
          exact absurd (hpre _ (List.mem_cons_self ..)) hx

theorem selectRows_eq_ok_iff {f g : Frame} {rows : List Int} :
    f.selectRows rows = .ok g ↔
      (∀ r ∈ rows, 0 ≤ r ∧ r < f.rows) ∧ g = f.take (rows.map Int.toNat) := by
  unfold selectRows
  cases hb : badRow f.rows rows 0 with
  | some e =>
    simp only [reduceCtorEq, false_iff, not_and]
    intro hin
    rw [badRow_eq_none hin] at hb
    cases hb
  | none =>
    simp only [Except.ok.injEq]
    exact ⟨fun h => ⟨bounds_of_badRow_eq_none hb, h.symm⟩, fun h => h.2.symm⟩

theorem selectRows_eq_error_iff {f : Frame} {rows : List Int} {e : FrameError} :
    f.selectRows rows = .error e ↔ ∃ (pre : List Int) (r : Int) (post : List Int), rows = pre ++ r :: post ∧
      (∀ x ∈ pre, 0 ≤ x ∧ x < f.rows) ∧ ¬ (0 ≤ r ∧ r < f.rows) ∧
      e = .rowOutOfRange pre.length r f.rows := by
  have h := @badRow_eq_some_iff f.rows e rows 0
  simp only [Nat.zero_add] at h
  rw [← h]
  unfold selectRows
  cases badRow f.rows rows 0 <;> simp

/-- Selection fails exactly when some entry names no row. -/
theorem selectRows_fails_iff (f : Frame) (rows : List Int) :
    (∃ e, f.selectRows rows = .error e) ↔ ∃ r ∈ rows, ¬ (0 ≤ r ∧ r < f.rows) := by
  constructor
  · rintro ⟨e, he⟩
    obtain ⟨pre, r, post, rfl, -, hr, -⟩ := selectRows_eq_error_iff.mp he
    exact ⟨r, by simp, hr⟩
  · rintro ⟨r, hr, hbad⟩
    cases h : f.selectRows rows with
    | error e => exact ⟨e, rfl⟩
    | ok g => exact absurd ((selectRows_eq_ok_iff.mp h).1 r hr) hbad

/-- Selecting `b` from the selection of `a` selects the rows `a[b[0]], a[b[1]], …` of the frame,
when every entry of `b` is a position in `a`. -/
theorem selectRows_selectRows {f u : Frame} {a b : List Int} (hu : f.selectRows a = .ok u)
    (hb : ∀ j ∈ b, 0 ≤ j ∧ j < a.length) :
    u.selectRows b = f.selectRows (b.map fun j => a.getD j.toNat 0) := by
  obtain ⟨ha, rfl⟩ := selectRows_eq_ok_iff.mp hu
  have hb' : ∀ j ∈ b, 0 ≤ j ∧ j < (f.take (a.map Int.toNat)).rows := by simpa using hb
  -- each composed index is an entry of `a`, so it names a row of `f`
  have hc : ∀ r ∈ b.map (fun j => a.getD j.toNat 0), 0 ≤ r ∧ r < f.rows := by
    intro r hr
    obtain ⟨j, hj, rfl⟩ := List.mem_map.mp hr
    have := hb j hj
    rw [List.getD_eq_getElem _ _ (by omega)]
    exact ha _ (List.getElem_mem _)
  have hlt : ∀ j ∈ b.map Int.toNat, j < (a.map Int.toNat).length := by
    intro j hj
    obtain ⟨k, hk, rfl⟩ := List.mem_map.mp hj
    have := hb k hk
    simp only [List.length_map]
    omega
  rw [selectRows_eq_ok_iff.mpr ⟨hb', rfl⟩, selectRows_eq_ok_iff.mpr ⟨hc, rfl⟩, f.take_take _ _ hlt]
  simp only [List.map_map, Function.comp_def, List.getD_eq_getElem?_getD, List.getElem?_map]
  congr 2
  apply List.map_congr_left
  intro j _
  cases a[j.toNat]? <;> rfl

/-- Selecting rows by index. A list of indices is accepted exactly when every entry names a row;
the result then holds those rows, in the order given and with repeats. Otherwise the failure
names the first entry that names no row and its position. Selecting `b` from the selection of
`a` is selecting `a[b[0]], a[b[1]], …`, and fails exactly when some entry of `b` is no position
in `a`. -/
theorem selectRows_picks_and_composes (f : Frame) (rows : List Int) :
    ((∃ g, f.selectRows rows = .ok g) ↔ ∀ r ∈ rows, 0 ≤ r ∧ r < f.rows) ∧
    (∀ g, f.selectRows rows = .ok g → g.HoldsRows f (rows.map Int.toNat)) ∧
    (∀ e, f.selectRows rows = .error e ↔ ∃ (pre : List Int) (r : Int) (post : List Int), rows = pre ++ r :: post ∧
      (∀ x ∈ pre, 0 ≤ x ∧ x < f.rows) ∧ ¬ (0 ≤ r ∧ r < f.rows) ∧
      e = .rowOutOfRange pre.length r f.rows) ∧
    ∀ (a b : List Int) (u : Frame), f.selectRows a = .ok u →
      ((∀ j ∈ b, 0 ≤ j ∧ j < a.length) →
        u.selectRows b = f.selectRows (b.map fun j => a.getD j.toNat 0)) ∧
      ((∃ e, u.selectRows b = .error e) ↔ ∃ j ∈ b, ¬ (0 ≤ j ∧ j < a.length)) := by
  refine ⟨⟨fun ⟨g, hg⟩ => (selectRows_eq_ok_iff.mp hg).1,
      fun h => ⟨_, selectRows_eq_ok_iff.mpr ⟨h, rfl⟩⟩⟩, ?_, fun e => selectRows_eq_error_iff,
      fun a b u hu => ⟨selectRows_selectRows hu, ?_⟩⟩
  · intro g hg
    rw [(selectRows_eq_ok_iff.mp hg).2]
    exact holdsRows_take f _
  · obtain ⟨-, rfl⟩ := selectRows_eq_ok_iff.mp hu
    simpa using selectRows_fails_iff (f.take (a.map Int.toNat)) b

/-! ## Restricting to an x-range -/

@[simp]
theorem x_take (f : Frame) (rows : List Nat) : (f.take rows).x = f.x.take rows := by
  simp [x, take, List.head_map]

/-- Restricting to a valid range keeps, in order, the rows whose x value the range keeps. -/
theorem sliceX_eq {r : XRange} (hr : r.validate = .ok ()) (f : Frame) :
    f.sliceX r = .ok (f.take ((List.range f.rows).filter fun i => r.keeps (f.x.floatAt i))) := by
  unfold sliceX
  rw [hr]
  by_cases hu : r.unbounded
  · have hall : ((List.range f.rows).filter fun i => r.keeps (f.x.floatAt i)) = List.range f.rows :=
      List.filter_eq_self.mpr fun i _ => by simp [XRange.keeps, hu]
    simp only [hu, hall, f.take_range, bind, Except.bind, pure, Except.pure, if_true]
  · have hc : ∀ v, r.keeps v = r.contains v := fun v => by simp [XRange.keeps, hu]
    simp only [hu, hc, rowsIn, bind, Except.bind, pure, Except.pure]
    rfl

/-- Restricting some rows of `f` to a valid range keeps those of them whose x value the range
keeps. -/
theorem sliceX_take {r : XRange} (hr : r.validate = .ok ()) (f : Frame) (rows : List Nat) :
    (f.take rows).sliceX r = .ok (f.take (rows.filter fun i => r.keeps (f.x.floatAt i))) := by
  rw [sliceX_eq hr, take_take _ _ _ (fun j hj => by simpa using (List.mem_filter.mp hj).1)]
  have hpos : ((List.range rows.length).filter fun j => r.keeps ((f.take rows).x.floatAt j)) =
      (List.range rows.length).filter fun j => r.keeps (f.x.floatAt (rows.getD j 0)) := by
    apply List.filter_congr
    intro j hj
    have hj' := List.mem_range.mp hj
    rw [x_take, Column.floatAt_take _ _ _ hj', List.getD_eq_getElem _ _ hj']
    rfl
  rw [rows_take, hpos]
  conv_rhs => rw [← map_getD_range rows, List.filter_map]
  rfl

theorem sliceX_sliceX {r₁ r₂ : XRange} (h₁ : r₁.validate = .ok ()) (h₂ : r₂.validate = .ok ())
    (f : Frame) : (f.sliceX r₁ >>= (·.sliceX r₂)) = .ok (f.take ((List.range f.rows).filter
      fun i => r₁.keeps (f.x.floatAt i) && r₂.keeps (f.x.floatAt i))) := by
  rw [sliceX_eq h₁]
  show (f.take _).sliceX r₂ = _
  rw [sliceX_take h₂, List.filter_filter]
  congr 3
  funext i
  exact Bool.and_comm _ _

/-- For a valid range other than `[-Inf, +Inf)` the result holds exactly the rows whose x value
the range contains, in increasing order; for `[-Inf, +Inf)` it is the frame itself. -/
theorem sliceX_holdsRows {r : XRange} (hr : r.validate = .ok ()) (f : Frame) :
    ∃ g, f.sliceX r = .ok g ∧ (r.unbounded = true → g = f) ∧
      (r.unbounded = false → ∃ rows : List Nat, rows.Pairwise (· < ·) ∧
        (∀ i, i ∈ rows ↔ i < f.rows ∧ r.contains (f.x.floatAt i) = true) ∧ g.HoldsRows f rows) := by
  refine ⟨_, sliceX_eq hr f, fun hu => ?_, fun hu => ⟨_, List.pairwise_lt_range.filter _,
    fun i => ?_, holdsRows_take f _⟩⟩
  · rw [List.filter_eq_self.mpr (fun i _ => by simp [XRange.keeps, hu]), f.take_range]
  · simp [XRange.keeps, hu]

/-- Restricting a frame to an x-range. For a valid range other than `[-Inf, +Inf)` the result holds
exactly the rows, in increasing order, whose x value the range contains; for `[-Inf, +Inf)` it is
the frame itself, rows whose x is NaN included. Two restrictions in a row give the same frame in
either order, the frame restricted to the meet of the ranges when that is a valid range, and a frame
without rows otherwise. -/
theorem sliceX_rows_commute_meet (f : Frame) {r₁ r₂ : XRange} (h₁ : r₁.validate = .ok ())
    (h₂ : r₂.validate = .ok ()) :
    (∃ g, f.sliceX r₁ = .ok g ∧ (r₁.unbounded = true → g = f) ∧
      (r₁.unbounded = false → ∃ rows : List Nat, rows.Pairwise (· < ·) ∧
        (∀ i, i ∈ rows ↔ i < f.rows ∧ r₁.contains (f.x.floatAt i) = true) ∧ g.HoldsRows f rows)) ∧
    (f.sliceX r₁ >>= (·.sliceX r₂)) = (f.sliceX r₂ >>= (·.sliceX r₁)) ∧
    ((r₁.meet r₂).validate = .ok () →
      (f.sliceX r₁ >>= (·.sliceX r₂)) = f.sliceX (r₁.meet r₂)) ∧
    ((r₁.meet r₂).validate ≠ .ok () →
      ∃ g, (f.sliceX r₁ >>= (·.sliceX r₂)) = .ok g ∧ g.rows = 0) := by
  refine ⟨sliceX_holdsRows h₁ f, ?_, fun h => ?_, fun h => ⟨_, sliceX_sliceX h₁ h₂ f, ?_⟩⟩
  · rw [sliceX_sliceX h₁ h₂, sliceX_sliceX h₂ h₁]
    congr 3
    funext i
    exact Bool.and_comm _ _
  · rw [sliceX_sliceX h₁ h₂, sliceX_eq h]
    simp only [XRange.keeps_meet h₁ h₂ h]
  · simp [XRange.keeps_of_meet_invalid h₁ h₂ h]

/-- Restricting a float column `x = [0, 1, 2]` with a boolean column beside it to `[0, 2)` and to
`[1, +Inf)`: the meet `[1, 2)` keeps row 1. -/
theorem sliceX_rows_commute_meet_bools :
    let f : Frame := ⟨[Column.ofFloats "x".toUTF8 #[0, 1, 2],
      Column.ofBools "b".toUTF8 #[true, false, true]], 3, by simp, by decide⟩
    let r₁ : XRange := ⟨0, 2⟩
    let r₂ : XRange := XRange.atLeast 1
    r₁.validate = .ok () ∧ r₂.validate = .ok () ∧
    (∃ g, f.sliceX r₁ = .ok g ∧ (r₁.unbounded = true → g = f) ∧
      (r₁.unbounded = false → ∃ rows : List Nat, rows.Pairwise (· < ·) ∧
        (∀ i, i ∈ rows ↔ i < f.rows ∧ r₁.contains (f.x.floatAt i) = true) ∧ g.HoldsRows f rows)) ∧
    (f.sliceX r₁ >>= (·.sliceX r₂)) = (f.sliceX r₂ >>= (·.sliceX r₁)) ∧
    ((r₁.meet r₂).validate = .ok () →
      (f.sliceX r₁ >>= (·.sliceX r₂)) = f.sliceX (r₁.meet r₂)) ∧
    ((r₁.meet r₂).validate ≠ .ok () →
      ∃ g, (f.sliceX r₁ >>= (·.sliceX r₂)) = .ok g ∧ g.rows = 0) :=
  have h₁ : XRange.validate ⟨0, 2⟩ = .ok () := by rfl
  have h₂ : (XRange.atLeast 1).validate = .ok () := by rfl
  ⟨h₁, h₂, sliceX_rows_commute_meet _ h₁ h₂⟩

/-- Over `[-Inf, +Inf)` the frame comes back whole although the range contains no NaN: of the two
rows of `x = [NaN, 1]` the range contains only row 1, yet both are kept. -/
theorem sliceX_all_keepsNaN :
    let f : Frame := ⟨[Column.ofFloats "x".toUTF8 #[0 / 0, 1],
      Column.ofFloats "y".toUTF8 #[5, 6]], 2, by simp, by decide⟩
    f.sliceX XRange.all = .ok f ∧ f.rows = 2 ∧ f.rowsIn XRange.all = [1] :=
  ⟨by rfl, rfl, by rfl⟩

end Frame

end Decimation
