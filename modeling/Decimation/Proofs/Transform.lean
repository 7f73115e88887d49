import Mathlib
import Decimation.Proofs.Downsampling
import Decimation.Transform
/-!
# What a sequence of operations leaves of a frame

Restricting a frame to an x-range, selecting rows by index and downsampling each build the new
frame by taking rows of the old one, and each takes only rows the old frame has: the x-range
scan looks at the rows below the frame's length, the selection refuses an index that names no
row, and downsampling takes the positions its algorithm picks among the rows it kept, all of
them below the number kept. `Frame.RowsOf g f` says this of two frames: `g` is `f.take rows`
for rows of `f`. It is reflexive and transitive (`Frame.RowsOf.trans`), and it keeps the
columns' names and kinds (`Frame.RowsOf.shape`).

One step of a run, failed or not, leaves rows of the frame it started from (`FrameOp.step_rowsOf`),
so by induction a whole run does (`Frame.runOps_rowsOf`). The main statement,
`runOps_keeps_columns`, reads this off for every frame a run reaches.
-/

namespace Decimation

/-! ## Rows of a frame -/

namespace Frame

/-- `g` holds, in every column of `f`, the values at rows of `f`: it is `f.take rows` for row
indices that all lie below `f.rows`. -/
def RowsOf (g f : Frame) : Prop :=
  ∃ rows : List Nat, (∀ r ∈ rows, r < f.rows) ∧ g = f.take rows

theorem RowsOf.refl (f : Frame) : f.RowsOf f :=
  ⟨List.range f.rows, fun _ => List.mem_range.mp, f.take_range.symm⟩

theorem RowsOf.trans {f g h : Frame} (hgf : g.RowsOf f) (hhg : h.RowsOf g) : h.RowsOf f := by
  obtain ⟨rows, hrows, rfl⟩ := hgf
  obtain ⟨js, hjs, rfl⟩ := hhg
  simp only [rows_take] at hjs
  refine ⟨js.map (rows.getD · 0), fun r hr => ?_, f.take_take rows js hjs⟩
  obtain ⟨j, hj, rfl⟩ := List.mem_map.mp hr
  rw [List.getD_eq_getElem _ _ (hjs j hj)]
  exact hrows _ (List.getElem_mem _)

/-- Taking rows keeps the name and the kind of every column. -/
theorem RowsOf.shape {f g : Frame} (h : g.RowsOf f) :
    g.columns.map (fun c => (c.name, c.kind)) = f.columns.map (fun c => (c.name, c.kind)) := by
  obtain ⟨rows, -, rfl⟩ := h
  simp [take]

/-! ## One step -/

theorem lt_of_mem_rowsIn {f : Frame} {r : XRange} {i : Nat} (h : i ∈ f.rowsIn r) : i < f.rows :=
  List.mem_range.mp (List.mem_filter.mp h).1

theorem sliceX_rowsOf {f g : Frame} {r : XRange} (h : f.sliceX r = .ok g) : g.RowsOf f := by
  unfold sliceX at h
  cases hv : r.validate with
  | error e => simp [hv, bind, Except.bind] at h
  | ok u =>
    by_cases hu : r.unbounded
    · simp only [hv, hu, bind, Except.bind, pure, Except.pure, if_true, Except.ok.injEq] at h
      rw [← h]
      exact RowsOf.refl f
    · simp only [hv, hu, bind, Except.bind, pure, Except.pure] at h
      cases h
      exact ⟨f.rowsIn r, fun i hi => lt_of_mem_rowsIn hi, rfl⟩

/-- No bad row means every index names a row. -/
theorem bounds_of_badRow_eq_none {n pos : Nat} {rows : List Int} (h : badRow n rows pos = none) :
    ∀ r ∈ rows, 0 ≤ r ∧ r < n := by
  fun_induction badRow n rows pos with
  | case1 => simp
  | case2 pos r rs hr ih =>
    intro q hq
    rcases List.mem_cons.mp hq with rfl | hq
    · exact hr
    · exact ih h q hq
  | case3 => simp at h

theorem selectRows_rowsOf {f g : Frame} {rows : List Int} (h : f.selectRows rows = .ok g) :
    g.RowsOf f := by
  unfold selectRows at h
  cases hb : badRow f.rows rows 0 with
  | some e => simp [hb] at h
  | none =>
    rw [hb] at h
    cases h
    have hin := bounds_of_badRow_eq_none hb
    refine ⟨rows.map Int.toNat, fun i hi => ?_, rfl⟩
    obtain ⟨r, hr, rfl⟩ := List.mem_map.mp hi
    have := hin r hr
    omega

end Frame

theorem Config.lt_of_mem_keptRows {c : Config} {f : Frame} {i : Nat} (h : i ∈ c.keptRows f) :
    i < f.rows := by
  unfold Config.keptRows at h
  split at h
  · split at h
    · exact List.mem_range.mp h
    · exact Frame.lt_of_mem_rowsIn h
  · exact List.mem_range.mp h

/-- The rows at positions `j` of a list of rows of `f` are rows of `f`. -/
theorem Frame.take_getD_rowsOf (f : Frame) {F j : List Nat} (hF : ∀ i ∈ F, i < f.rows)
    (hj : ∀ k ∈ j, k < F.length) : (f.take (j.map (F.getD · 0))).RowsOf f := by
  refine ⟨_, fun r hr => ?_, rfl⟩
  obtain ⟨k, hk, rfl⟩ := List.mem_map.mp hr
  rw [List.getD_eq_getElem _ _ (hj k hk)]
  exact hF _ (List.getElem_mem _)

theorem Config.apply_rowsOf {c : Config} (hv : c.validate = .ok ()) {f u : Frame}
    (h : c.apply f = .ok u) : u.RowsOf f := by
  rw [Config.apply_eq hv] at h
  have hF : ∀ i ∈ c.keptRows f, i < f.rows := fun _ => Config.lt_of_mem_keptRows
  split at h
  · cases h
    exact ⟨_, hF, rfl⟩
  · split at h
    · cases h
    · split at h
      · rename_i j hsel
        cases h
        refine f.take_getD_rowsOf hF fun k hk => ?_
        simpa using Algorithm.lt_of_select_ok hsel k hk
      · cases h

theorem downsample_rowsOf {f u : Frame} {w : Int} {opts : List (Option ConfigOption)}
    (h : downsample f w opts = .ok u) : u.RowsOf f := by
  simp only [downsample, bind_eq_ok] at h
  obtain ⟨c, hc, hu⟩ := h
  exact Config.apply_rowsOf (Config.build_ok_valid _ _ _ (mapError_eq_ok.mp hc)) hu

namespace FrameOp

/-- An operation that succeeds gives rows of the frame it was applied to. -/
theorem outcome?_rowsOf {op : FrameOp} {f g : Frame} (h : op.outcome? f = some g) : g.RowsOf f := by
  cases op with
  | sliceX r => exact Frame.sliceX_rowsOf (eq_ok_of_toOption h)
  | selectRows rows => exact Frame.selectRows_rowsOf (eq_ok_of_toOption h)
  | downsample w opts => exact downsample_rowsOf (eq_ok_of_toOption h)

/-- Every step, failed or not, leaves rows of the frame it started from. -/
theorem step_rowsOf (op : FrameOp) (f : Frame) : (op.step f).RowsOf f := by
  unfold step
  cases h : op.outcome? f with
  | none => exact Frame.RowsOf.refl f
  | some g => exact outcome?_rowsOf h

end FrameOp

/-! ## A run -/

/-- Every frame a sequence of operations reaches holds rows of the frame it started from. -/
theorem Frame.runOps_rowsOf (f : Frame) (ops : List FrameOp) : (f.runOps ops).RowsOf f := by
  induction ops generalizing f with
  | nil => exact Frame.RowsOf.refl f
  | cons op ops ih =>
    -- the rest of the run starts from the frame the first step leaves
    exact (op.step_rowsOf f).trans (ih (op.step f))

/-- Every frame that a sequence of operations reaches from a frame `f`, whichever of them
succeed: it has the columns of `f` in order, with their names and kinds, every column as long
as the frame; it holds in each column the values of that column of `f` at rows of `f`; and the
next operation, whatever it is, takes only rows that the frame has. -/
theorem runOps_keeps_columns (f : Frame) (ops : List FrameOp) :
    (f.runOps ops).columns.map (fun c => (c.name, c.kind)) =
        f.columns.map (fun c => (c.name, c.kind)) ∧
      (∀ c ∈ (f.runOps ops).columns, c.size = (f.runOps ops).rows) ∧
      (∃ rows : List Nat, (∀ r ∈ rows, r < f.rows) ∧ f.runOps ops = f.take rows) ∧
      ∀ op : FrameOp, ∃ rows : List Nat, (∀ r ∈ rows, r < (f.runOps ops).rows) ∧
        op.step (f.runOps ops) = (f.runOps ops).take rows :=
  ⟨(f.runOps_rowsOf ops).shape, (f.runOps ops).uniform, f.runOps_rowsOf ops,
    fun op => op.step_rowsOf (f.runOps ops)⟩

end Decimation
