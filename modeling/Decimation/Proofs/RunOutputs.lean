import Decimation.Proofs.Corruption
import Decimation.Proofs.Downsampling
/-!
# The two outputs of a run

A run selects rows of a frame and writes them either as a table or as a snapshot. The table is
the frame a selection keeps (`Selection.output`); the snapshot is captured from the selection's
frame at the rows it keeps and encoded. `run_snapshot_eq_output` says that the two carry the same
points: capturing succeeds, and a snapshot whose payloads fit the 32-bit lengths of a header is
encoded, decoded back, and read as a frame with the rows of the table, its x values widened and
its y values as they were, booleans included.

The payloads need not fit: encoding refuses a raw payload beyond `2^32 - 1` bytes, which a
selection of `2^28` rows already exceeds (`encode_capture_tooLarge`), far below the `2^32 - 1`
rows a snapshot can index.

The proof goes through the rows the selection keeps. Selection keeps strictly increasing rows of
its frame (`Config.select_ok_rows`), capturing them gives `Snapshot.ofRows` (`capture_ok`), and
reading that snapshot as a frame gives back the taken columns (`table_ofRows`).
-/

namespace Decimation

open Codec

/-! ## Values through a snapshot -/

theorem Float64.toFloat_ofFloat (v : Float) : (Float64.ofFloat v).toFloat = v :=
  ofBits_storedBits v

/-- A widened boolean is nonzero exactly when it is `true`. -/
theorem widen_ne_zero (b : Bool) : (widen b != 0) = b := by
  cases b <;> decide

/-! ## The rows a selection keeps -/

/-- Strictly increasing rows below `2^32` pass validation, after a row below all of them. -/
theorem firstBadRow_map_ofNat : ∀ {rows : List Nat} (prev : Option Int) (pos : Nat),
    rows.Pairwise (· < ·) → (∀ r ∈ rows, r ≤ 4294967295) →
    (∀ p r, prev = some p → r ∈ rows → p < r) →
    firstBadRow (rows.map Int.ofNat) prev pos = none
  | [], _, _, _, _, _ => rfl
  | r :: rs, prev, pos, hsorted, hmax, hprev => by
    have hr := hmax r (by simp)
    have hrest : firstBadRow (rs.map Int.ofNat) (some (r : Int)) (pos + 1) = none :=
      firstBadRow_map_ofNat _ _ (List.pairwise_cons.mp hsorted).2
        (fun q hq => hmax q (by simp [hq]))
        (fun p q hp hq => by
          cases hp
          exact_mod_cast (List.pairwise_cons.mp hsorted).1 q hq)
    simp only [List.map_cons, firstBadRow]
    rw [if_neg (by simp only [maxRow, Int.ofNat_eq_natCast]; omega)]
    cases prev with
    | none => exact hrest
    | some p =>
      have hpr : p < r := hprev p r rfl (by simp)
      simp only [Int.ofNat_eq_natCast, if_neg (show ¬(r : Int) ≤ p by omega)]
      exact hrest

/-- Strictly increasing rows below `n` are at most `n`. -/
theorem length_le_of_pairwise {rows : List Nat} {n : Nat} (hsorted : rows.Pairwise (· < ·))
    (hlt : ∀ r ∈ rows, r < n) : rows.length ≤ n := by
  have hsub : rows ⊆ List.range n := fun r hr => List.mem_range.mpr (hlt r hr)
  simpa using (List.Nodup.subperm (hsorted.imp Nat.ne_of_lt) hsub).length_le

/-- Selection keeps the columns of the frame, at most its rows, and names strictly increasing
rows of the frame it keeps when it names any. -/
theorem Config.select_ok_rows {c : Config} {t : Frame} {sel : Selection}
    (h : c.select t = .ok sel) :
    sel.frame.dimensions = t.dimensions ∧ sel.frame.rows ≤ t.rows ∧
      ∀ j, sel.picked = some j → j.Pairwise (· < ·) ∧ ∀ i ∈ j, i < sel.frame.rows := by
  have hv : c.validate = .ok () := by
    cases hv : c.validate with
    | error e => simp [Config.select, hv, bind, Except.bind, Except.mapError] at h
    | ok u => rfl
  simp only [Config.select, hv, Config.filter_eq_take hv, Config.mapError_ok, bind,
    Except.bind] at h
  have hkept : (c.keptRows t).length ≤ t.rows := by
    unfold Config.keptRows
    split
    · split
      · simp
      · simpa [Frame.rowsIn] using List.length_filter_le _ (List.range t.rows)
    · simp
  split at h
  · cases h
    exact ⟨Frame.dimensions_take _ _, by simpa using hkept, fun j hj => by cases hj⟩
  split at h
  · cases h
  rename_i hdim
  rw [Frame.dimensions_take] at hdim
  obtain ⟨xcol, hx, hxv⟩ := @Frame.dimension_take_of_lt t 0 (by omega) (c.keptRows t)
  obtain ⟨ycol, hy, -⟩ := @Frame.dimension_take_of_lt t 1 (by omega) (c.keptRows t)
  simp only [Nat.cast_zero] at hx
  simp only [Nat.cast_one] at hy
  simp only [hx, hy, Config.mapError_ok] at h
  cases hsel : c.algorithm.select xcol.toFloats ycol.toFloats c.width with
  | error e => simp [hsel, Except.mapError] at h
  | ok j =>
    simp only [hsel, Config.mapError_ok, pure, Except.pure, Except.ok.injEq] at h
    subst h
    refine ⟨Frame.dimensions_take _ _, by simpa using hkept, fun j' hj => ?_⟩
    cases hj
    refine ⟨Algorithm.pairwise_of_select_ok hsel, fun i hi => ?_⟩
    have := Algorithm.lt_of_select_ok hsel i hi
    simpa [hxv] using this

/-- The frame a selection keeps is its frame at the rows it keeps: all of them when it names
none. -/
theorem Selection.output_eq_take {sel : Selection}
    (hpicked : ∀ j, sel.picked = some j → ∀ i ∈ j, i < sel.frame.rows) :
    sel.output = .ok (sel.frame.take (sel.picked.getD (List.range sel.frame.rows))) := by
  unfold Selection.output
  cases hp : sel.picked with
  | none => simp [Frame.take_range]
  | some j => exact Frame.selectRows_ofNat _ (hpicked j hp)

/-! ## Capturing the rows and reading them back -/

theorem Frame.dimension_of_lt {f : Frame} {k : Nat} (hk : k < f.dimensions) :
    f.dimension k = .ok (f.columns.getD k Column.empty) := by
  have hk' : 0 ≤ (k : Int) ∧ (k : Int).toNat < f.columns.length :=
    ⟨by omega, by simp only [Int.toNat_natCast]; exact hk⟩
  rw [Frame.dimension, dif_pos hk', List.getD_eq_getElem _ _ hk]
  rfl

/-- The snapshot of strictly increasing rows below `2^32` is valid, with a name that fits. -/
theorem validate_ofRows {name : ByteArray} {x y : Column} {rows : List Nat} {n : Nat}
    (hname : name.size ≤ maxNameLength) (hn : n ≤ 4294967295)
    (hsorted : rows.Pairwise (· < ·)) (hlt : ∀ r ∈ rows, r < n) :
    (Snapshot.ofRows name x y (rows.map Int.ofNat)).validate = .ok () := by
  have hlen := length_le_of_pairwise hsorted hlt
  refine Snapshot.validate_eq_ok.mpr ⟨hname, by simp [Snapshot.ofRows], by simp [Snapshot.ofRows],
    by simp [Snapshot.ofRows]; omega, ?_⟩
  simp only [Snapshot.ofRows, List.toList_toArray]
  exact firstBadRow_map_ofNat none 0 hsorted (fun r hr => by have := hlt r hr; omega)
    (fun p r hp => by cases hp)

/-- Capturing without rows named captures every row. -/
theorem Snapshot.capture_none (name : ByteArray) (f : Frame) :
    Snapshot.capture name f none = Snapshot.capture name f (some ((List.range f.rows).map Int.ofNat)) :=
  rfl

/-- Capturing strictly increasing rows of a frame below `2^32` succeeds, with a name that fits,
and gives the snapshot of those rows of its first two columns. -/
theorem capture_ok {name : ByteArray} {g : Frame} {rows : List Nat} (hdim : 2 ≤ g.dimensions)
    (hname : name.size ≤ maxNameLength) (hg : g.rows ≤ 4294967295)
    (hsorted : rows.Pairwise (· < ·)) (hlt : ∀ r ∈ rows, r < g.rows) :
    Snapshot.capture name g (some (rows.map Int.ofNat)) =
      .ok (Snapshot.ofRows name (g.columns.getD 0 Column.empty) (g.columns.getD 1 Column.empty)
        (rows.map Int.ofNat)) := by
  have hv := validate_ofRows (x := g.columns.getD 0 Column.empty)
    (y := g.columns.getD 1 Column.empty) hname hg hsorted hlt
  have hbad : Frame.badRow g.rows (rows.map Int.ofNat) 0 = none :=
    Frame.badRow_eq_none (by simpa using hlt) 0
  have hx : g.dimension 0 = .ok (g.columns.getD 0 Column.empty) :=
    Frame.dimension_of_lt (k := 0) (by omega)
  have hy : g.dimension 1 = .ok (g.columns.getD 1 Column.empty) := Frame.dimension_of_lt hdim
  simp only [Snapshot.capture, if_neg (show ¬g.dimensions < 2 by omega), Option.getD_some, hx, hy,
    Config.mapError_ok, hbad, hv, bind, Except.bind, pure, Except.pure]

/-- The snapshot of some rows of an x and a y column, read as a frame, has those rows of the x
values widened and those rows of the y values as they were. -/
theorem table_ofRows (name : ByteArray) (x y : Column) (rows : List Nat) :
    ∃ T, (Snapshot.ofRows name x y (rows.map Int.ofNat)).table = .ok T ∧ T.rows = rows.length ∧
      T.x.toFloats = (x.take rows).toFloats ∧
      (T.columns.getD 1 Column.empty).values = (y.take rows).values := by
  obtain ⟨ycol, hycol, hysize, hyvals⟩ : ∃ ycol,
      (if (Snapshot.ofRows name x y (rows.map Int.ofNat)).boolY then
        Column.ofBools (Snapshot.ofRows name x y (rows.map Int.ofNat)).yName
          ((Snapshot.ofRows name x y (rows.map Int.ofNat)).ys.map (·.toFloat != 0))
      else Column.ofFloats (Snapshot.ofRows name x y (rows.map Int.ofNat)).yName
        ((Snapshot.ofRows name x y (rows.map Int.ofNat)).ys.map Float64.toFloat)) = ycol ∧
      ycol.size = rows.length ∧ ycol.values = (y.take rows).values := by
    obtain ⟨n, v⟩ := y
    cases v with
    | floats vs =>
      refine ⟨_, rfl, by simp [Snapshot.ofRows, Column.isBool, Column.kind, Column.ofFloats,
        Column.size], ?_⟩
      simp [Snapshot.ofRows, Column.isBool, Column.kind, Column.ofFloats, Column.take,
        Column.floatAt, Float64.toFloat_ofFloat, Function.comp_def]
    | bools vs =>
      refine ⟨_, rfl, by simp [Snapshot.ofRows, Column.isBool, Column.kind, Column.ofBools,
        Column.size], ?_⟩
      simp [Snapshot.ofRows, Column.isBool, Column.kind, Column.ofBools, Column.take,
        Column.floatAt, Float64.toFloat_ofFloat, widen_ne_zero, Function.comp_def]
  have hxsize : (Column.ofFloats "x".toUTF8
      ((Snapshot.ofRows name x y (rows.map Int.ofNat)).xs.map Float64.toFloat)).size =
      rows.length := by
    simp [Snapshot.ofRows, Column.ofFloats, Column.size]
  have huniform : ∀ d ∈ [Column.ofFloats "x".toUTF8
      ((Snapshot.ofRows name x y (rows.map Int.ofNat)).xs.map Float64.toFloat), ycol],
      d.size = (Column.ofFloats "x".toUTF8
        ((Snapshot.ofRows name x y (rows.map Int.ofNat)).xs.map Float64.toFloat)).size := by
    intro d hd
    simp only [List.mem_cons, List.not_mem_nil, or_false] at hd
    rcases hd with rfl | rfl
    · rfl
    · rw [hysize, hxsize]
  refine ⟨⟨_, _, List.cons_ne_nil _ _, huniform⟩, ?_, hxsize, ?_, hyvals⟩
  · rw [Snapshot.table, hycol, Frame.ofColumns, dif_pos huniform]
  · rw [Column.toFloats_take]
    simp [Frame.x, Snapshot.ofRows, Column.ofFloats, Column.toFloats, Float64.toFloat_ofFloat,
      Function.comp_def]

theorem Frame.x_eq_getD (f : Frame) : f.x = f.columns.getD 0 Column.empty := by
  obtain ⟨cs, n, hne, -⟩ := f
  cases cs with
  | nil => exact absurd rfl hne
  | cons c cs => rfl

/-- Column `k` of some rows of a frame is those rows of its column `k`. -/
theorem Frame.getD_take {f : Frame} {k : Nat} (hk : k < f.dimensions) (rows : List Nat) :
    (f.take rows).columns.getD k Column.empty = (f.columns.getD k Column.empty).take rows := by
  simp only [Frame.take, List.getD_eq_getElem?_getD, List.getElem?_map,
    List.getElem?_eq_getElem (show k < f.columns.length from hk), Option.map_some,
    Option.getD_some]

/-! ## The two outputs -/

/-- A run's two outputs carry the same points. For a frame of at least two columns and at most
`2^32 - 1` rows, and a selection of it, capturing the kept rows under the name of the y column
succeeds when the name fits; under settings whose compression restores what it compresses and
whose raw and stored payloads fit their 32-bit lengths, the snapshot is encoded, decoded back,
and read as a frame with as many rows as the kept frame, the same x values widened, and the same
y values, booleans as booleans. -/
theorem run_snapshot_eq_output {c : Config} {t : Frame} {sel : Selection} {y : Column}
    (hdim : 2 ≤ t.dimensions) (hrows : t.rows ≤ 4294967295) (hsel : c.select t = .ok sel)
    (hy : sel.frame.dimension 1 = .ok y) (hname : y.name.size ≤ maxNameLength) :
    ∃ snap out, Snapshot.capture y.name sel.frame (sel.picked.map (·.map Int.ofNat)) = .ok snap ∧
      sel.output = .ok out ∧
      ∀ (lib : Libraries) opts cfg, EncoderSettings.build opts = .ok cfg →
        cfg.compression.Restores lib →
        (snap.payload cfg.order cfg.encoding).size ≤ 4294967295 →
        (cfg.compression.compress lib (snap.payload cfg.order cfg.encoding)).size < UInt32.size →
        ∃ d h T, snap.encode lib opts = .ok d ∧ Snapshot.decode lib d = .ok (h, snap) ∧
          snap.table = .ok T ∧ T.rows = out.rows ∧ T.x.toFloats = out.x.toFloats ∧
          (T.columns.getD 1 Column.empty).values = (out.columns.getD 1 Column.empty).values := by
  obtain ⟨hdims, hle, hpicked⟩ := Config.select_ok_rows hsel
  have hdim' : 2 ≤ sel.frame.dimensions := by omega
  -- the rows both outputs keep: the named ones, or all rows of the selection's frame
  obtain ⟨rows, hrowsDef, hsorted, hlt⟩ : ∃ rows, sel.picked.getD (List.range sel.frame.rows) = rows ∧
      rows.Pairwise (· < ·) ∧ ∀ r ∈ rows, r < sel.frame.rows := by
    cases hp : sel.picked with
    | none => exact ⟨_, rfl, List.pairwise_lt_range, fun r hr => List.mem_range.mp hr⟩
    | some j => exact ⟨j, rfl, hpicked j hp⟩
  have hcap : Snapshot.capture y.name sel.frame (sel.picked.map (·.map Int.ofNat)) =
      Snapshot.capture y.name sel.frame (some (rows.map Int.ofNat)) := by
    rw [← hrowsDef]
    cases sel.picked <;> rfl
  obtain rfl : y = sel.frame.columns.getD 1 Column.empty := by
    have hy1 : sel.frame.dimension 1 = .ok (sel.frame.columns.getD 1 Column.empty) :=
      Frame.dimension_of_lt hdim'
    exact Except.ok.inj (hy.symm.trans hy1)
  have hout := Selection.output_eq_take (fun j hj => (hpicked j hj).2)
  rw [hrowsDef] at hout
  have hv := validate_ofRows (x := sel.frame.columns.getD 0 Column.empty)
    (y := sel.frame.columns.getD 1 Column.empty) hname (hle.trans hrows) hsorted hlt
  refine ⟨_, _, hcap.trans (capture_ok hdim' hname (hle.trans hrows) hsorted hlt), hout, ?_⟩
  intro lib opts cfg hcfg hcodec hraw hst
  obtain ⟨T, hT, hTrows, hTx, hTy⟩ := table_ofRows (sel.frame.columns.getD 1 Column.empty).name
    (sel.frame.columns.getD 0 Column.empty) (sel.frame.columns.getD 1 Column.empty) rows
  refine ⟨_, _, T, Snapshot.encode_eq_ok_iff.mpr ⟨cfg, hcfg, hv, hraw, rfl⟩,
    decode_storedBytes hv hcodec hraw hst, hT, by simpa using hTrows, ?_, ?_⟩
  · rw [hTx, Frame.x_eq_getD, Frame.getD_take (by omega)]
  · rw [hTy, Frame.getD_take (by omega)]

/-- Three rows, with `-0`, an infinity and boolean y values, fit LTTB's width of three and are
kept whole: the snapshot of all of them reads back as the frame. -/
theorem run_snapshot_eq_output_whole :
    let t : Frame := ⟨[Column.ofFloats "x".toUTF8 #[0, -0.0, 1 / 0],
      Column.ofBools "on".toUTF8 #[true, false, true]], 3, by simp, by decide⟩
    let c : Config := ⟨3, .lttb, none⟩
    let sel : Selection := ⟨t, none⟩
    let y := Column.ofBools "on".toUTF8 #[true, false, true]
    2 ≤ t.dimensions ∧ t.rows ≤ 4294967295 ∧ c.select t = .ok sel ∧
      sel.frame.dimension 1 = .ok y ∧ y.name.size ≤ maxNameLength ∧
      ∃ snap out, Snapshot.capture y.name sel.frame (sel.picked.map (·.map Int.ofNat)) = .ok snap ∧
        sel.output = .ok out ∧
        ∀ (lib : Libraries) opts cfg, EncoderSettings.build opts = .ok cfg →
          cfg.compression.Restores lib →
          (snap.payload cfg.order cfg.encoding).size ≤ 4294967295 →
          (cfg.compression.compress lib (snap.payload cfg.order cfg.encoding)).size < UInt32.size →
          ∃ d h T, snap.encode lib opts = .ok d ∧ Snapshot.decode lib d = .ok (h, snap) ∧
            snap.table = .ok T ∧ T.rows = out.rows ∧ T.x.toFloats = out.x.toFloats ∧
            (T.columns.getD 1 Column.empty).values = (out.columns.getD 1 Column.empty).values := by
  intro t c sel y
  have hdim : 2 ≤ t.dimensions := by decide
  have hrows : t.rows ≤ 4294967295 := by decide
  have hsel : c.select t = .ok sel := Config.select_whole_of_le c t rfl rfl (by decide)
  have hy : sel.frame.dimension 1 = .ok y := by rfl
  have hname : y.name.size ≤ maxNameLength := by decide
  exact ⟨hdim, hrows, hsel, hy, hname, run_snapshot_eq_output hdim hrows hsel hy hname⟩

/-- A selection of `2^28` rows, a sixteenth of what a snapshot can index, is captured but cannot
be encoded under any options: its values alone take `2^32` bytes. -/
theorem encode_capture_tooLarge :
    let n := Nat.pow 2 28
    ∃ t c sel snap, Frame.ofXY (Array.replicate n 0) (Array.replicate n 0) = .ok t ∧
      Config.build n [] = .ok c ∧ c.select t = .ok sel ∧
      Snapshot.capture "y".toUTF8 sel.frame (sel.picked.map (·.map Int.ofNat)) = .ok snap ∧
      ∀ lib opts d, snap.encode lib opts ≠ .ok d := by
  intro n
  -- the frame of two float columns of `n` zeros, built without evaluating them
  have huniform : ∀ d ∈ [Column.ofFloats "x".toUTF8 (Array.replicate n 0),
      Column.ofFloats "y".toUTF8 (Array.replicate n 0)],
      d.size = (Column.ofFloats "x".toUTF8 (Array.replicate n 0)).size := by
    simp [Column.ofFloats, Column.size]
  let t : Frame := ⟨_, _, List.cons_ne_nil _ _, huniform⟩
  have ht : Frame.ofXY (Array.replicate n 0) (Array.replicate n 0) = .ok t := by
    rw [Frame.ofXY, Frame.ofColumns, dif_pos huniform]
  have hrows : t.rows = n := by simp [t, Column.ofFloats, Column.size]
  have hdims : t.dimensions = 2 := rfl
  have hc : Config.build n [] = .ok ⟨n, .lttb, none⟩ := by rfl
  have hv : (⟨n, .lttb, none⟩ : Config).validate = .ok () := Config.build_ok_valid _ _ _ hc
  have hsel := Config.select_whole_of_le ⟨n, .lttb, none⟩ t hv rfl (by rw [hrows])
  have hcap := @capture_ok "y".toUTF8 t (List.range t.rows) (by omega) (by decide)
    (by rw [hrows]; decide) List.pairwise_lt_range (fun r hr => List.mem_range.mp hr)
  refine ⟨t, _, _, Snapshot.ofRows "y".toUTF8 (t.columns.getD 0 Column.empty)
    (t.columns.getD 1 Column.empty) ((List.range t.rows).map Int.ofNat), ht, hc, hsel, ?_,
    fun lib opts d hd => ?_⟩
  · show Snapshot.capture "y".toUTF8 t none = _
    rw [Snapshot.capture_none]
    exact hcap
  -- encoding refuses a raw payload beyond `2^32 - 1` bytes, and the values take `16 n`
  · obtain ⟨cfg, -, -, hraw, -⟩ := Snapshot.encode_eq_ok_iff.mp hd
    rw [size_payload] at hraw
    simp [Snapshot.ofRows, hrows, n] at hraw
    omega

end Decimation
