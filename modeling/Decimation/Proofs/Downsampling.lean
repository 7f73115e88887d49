import Mathlib
import Decimation.Proofs.Lttb
import Decimation.Proofs.Except
import Decimation.Downsampling
/-!
# What downsampling keeps

A configuration that builds has a positive width, at least what its algorithm needs, and a valid
range if any. Downsampling under it works on the rows `keptRows`: those whose x value lies in
the range, in order, or every row when there is no range or the range is `[-Inf, +Inf)`. The
range `[-Inf, +Inf)` returns the frame as it is, so rows whose x is NaN stay, although no range
contains NaN (`apply_unboundedRange_keepsNaN`).

`Config.apply_eq` states `apply` on these rows with the intermediate frames taken away: the rows
themselves when they fit the width, and otherwise the rows at the positions the algorithm picks
from their x and y values. The main statement, `apply_build_keptRows`, then says what every
run gives: when it fails, and which rows of the frame a result holds. Two facts about the
algorithms carry it. Past the checks a built configuration always passes, Nth cannot fail and
LTTB fails only for an empty bucket (`Algorithm.select_error`). Nth keeps at most `w` points
for width `w` (`Algorithm.length_select_le`), because its stride is `⌈n / w⌉` whenever the
64-bit sum `n + w` does not wrap (`stride_ofNat`).
-/

namespace Decimation

/-! ## Configurations -/

namespace Config

theorem validate_eq_ok {c : Config} : c.validate = .ok () ↔
    0 < c.width ∧ c.algorithm.minOutput ≤ c.width ∧ ∀ r, c.range = some r → r.validate = .ok () := by
  unfold validate
  by_cases h1 : c.width ≤ 0
  · simp [h1]
  by_cases h2 : c.width < c.algorithm.minOutput
  · simp [h1, h2]
  simp only [h1, h2, if_false]
  cases hr : c.range with
  | none => simp; omega
  | some r =>
    simp only [mapError_eq_ok, Option.some.injEq, forall_eq']
    exact ⟨fun h => ⟨by omega, by omega, h⟩, fun h => h.2.2⟩

end Config

theorem ConfigOption.apply_width {o : ConfigOption} {c c' : Config} (h : o.apply c = .ok c') :
    c'.width = c.width := by
  cases o with
  | algorithmCode code =>
    simp only [ConfigOption.apply] at h
    split at h
    · cases h; rfl
    · cases h
  | algorithmName name =>
    simp only [ConfigOption.apply, bind_eq_ok, pure, Except.pure, Except.ok.injEq] at h
    obtain ⟨a, -, rfl⟩ := h
    rfl
  | xRange r =>
    simp only [ConfigOption.apply] at h
    split at h
    · cases h; rfl
    · cases h

theorem foldlM_apply_width (opts : List ConfigOption) :
    ∀ {c c' : Config}, opts.foldlM (fun c o => o.apply c) c = .ok c' → c'.width = c.width := by
  induction opts with
  | nil => intro c c' h; cases h; rfl
  | cons o os ih =>
    intro c c' h
    simp only [List.foldlM_cons, bind_eq_ok] at h
    obtain ⟨d, hd, hrest⟩ := h
    rw [ih hrest, ConfigOption.apply_width hd]

theorem Config.build_width {w : Int} {opts : List (Option ConfigOption)} {c : Config}
    (h : Config.build w opts = .ok c) : c.width = w := by
  simp only [Config.build, bind_eq_ok] at h
  obtain ⟨c', hc', u, -, hret⟩ := h
  cases hret
  rw [applyOptions_eq_foldlM] at hc'
  exact foldlM_apply_width _ hc'

/-! ## Taking rows -/

/-- Reading every position of an array in order gives the array. -/
theorem toArray_map_getD_range {α : Type} (a : Array α) (d : α) :
    ((List.range a.size).map (a.getD · d)).toArray = a := by
  apply Array.ext (by simp)
  intro i hi _
  simp only [List.size_toArray, List.length_map, List.length_range] at hi
  simp [hi]

/-- Position `j` of the values read at `rows` is the value at row `rows[j]`. -/
theorem getD_toArray_map_getD {α : Type} (a : Array α) (d : α) (rows : List Nat) {j : Nat}
    (hj : j < rows.length) :
    (rows.map (a.getD · d)).toArray.getD j d = a.getD (rows.getD j 0) d := by
  simp [hj]

namespace Column

theorem take_range (c : Column) : c.take (List.range c.size) = c := by
  obtain ⟨n, v⟩ := c
  cases v with
  | floats vs => simp only [take, size, toArray_map_getD_range]
  | bools vs => simp only [take, size, toArray_map_getD_range]

theorem take_take (c : Column) (rows js : List Nat) (h : ∀ j ∈ js, j < rows.length) :
    (c.take rows).take js = c.take (js.map (rows.getD · 0)) := by
  obtain ⟨n, v⟩ := c
  cases v with
  | floats vs =>
    simp only [take, mk.injEq, Values.floats.injEq, true_and, List.map_map]
    exact congrArg List.toArray
      (List.map_congr_left fun j hj => getD_toArray_map_getD vs 0 rows (h j hj))
  | bools vs =>
    simp only [take, mk.injEq, Values.bools.injEq, true_and, List.map_map]
    exact congrArg List.toArray
      (List.map_congr_left fun j hj => getD_toArray_map_getD vs false rows (h j hj))

theorem toFloats_take (c : Column) (rows : List Nat) :
    (c.take rows).toFloats = (rows.map c.floatAt).toArray := by
  cases c with
  | mk n v =>
    cases v with
    | floats vs => simp [take, toFloats, floatAt]
    | bools vs => simp [take, toFloats, floatAt]

end Column

namespace Frame

theorem ext_columns {f g : Frame} (hc : f.columns = g.columns) (hr : f.rows = g.rows) : f = g := by
  cases f
  cases g
  simp_all

theorem take_range (f : Frame) : f.take (List.range f.rows) = f := by
  apply ext_columns _ (by simp)
  simp only [take]
  conv => rhs; rw [← List.map_id f.columns]
  apply List.map_congr_left
  intro c hc
  rw [← f.uniform c hc]
  exact c.take_range

theorem take_take (f : Frame) (rows js : List Nat) (h : ∀ j ∈ js, j < rows.length) :
    (f.take rows).take js = f.take (js.map (rows.getD · 0)) := by
  apply ext_columns _ (by simp)
  simp only [take, List.map_map]
  apply List.map_congr_left
  intro c _
  exact c.take_take rows js h

@[simp]
theorem dimensions_take (f : Frame) (rows : List Nat) : (f.take rows).dimensions = f.dimensions := by
  simp [take, dimensions]

theorem dimension_take (f : Frame) (rows : List Nat) (i : Int) :
    (f.take rows).dimension i = (fun c => c.take rows) <$> f.dimension i := by
  unfold dimension
  by_cases h : 0 ≤ i ∧ i.toNat < f.columns.length
  · have h' : 0 ≤ i ∧ i.toNat < (f.take rows).columns.length := by simpa [take] using h
    rw [dif_pos h', dif_pos h]
    simp [take, Functor.map, Except.map]
  · have h' : ¬ (0 ≤ i ∧ i.toNat < (f.take rows).columns.length) := by simpa [take] using h
    rw [dif_neg h', dif_neg h]
    simp [take, Functor.map, Except.map]

theorem badRow_eq_none {n : Nat} {rows : List Int} (h : ∀ r ∈ rows, 0 ≤ r ∧ r < n) :
    ∀ pos, badRow n rows pos = none := by
  induction rows with
  | nil => intro pos; rfl
  | cons r rs ih =>
    intro pos
    rw [badRow, if_pos (h r (by simp))]
    exact ih (fun q hq => h q (by simp [hq])) _

theorem selectRows_ofNat (f : Frame) {js : List Nat} (h : ∀ j ∈ js, j < f.rows) :
    f.selectRows (js.map Int.ofNat) = .ok (f.take js) := by
  rw [selectRows, badRow_eq_none (by simpa using h)]
  simp [List.map_map, Function.comp_def]

end Frame

/-! ## The algorithms past their checks -/

theorem length_multiplesBelow (n s : Nat) : (multiplesBelow n s).length = (n + s - 1) / s := by
  simp [multiplesBelow]

theorem lt_of_mem_multiplesBelow {n s i : Nat} (hs : 0 < s) (h : i ∈ multiplesBelow n s) :
    i < n := by
  obtain ⟨m, hm, rfl⟩ := List.mem_range'.mp h
  have hm' : (m + 1) * s ≤ n + s - 1 := (Nat.le_div_iff_mul_le hs).mp hm
  rw [Nat.succ_mul] at hm'
  have := Nat.mul_comm s m
  omega

theorem pairwise_multiplesBelow (n : Nat) {s : Nat} (hs : 0 < s) :
    (multiplesBelow n s).Pairwise (· < ·) :=
  List.pairwise_lt_range' s hs

/-- With the stride `⌈n / w⌉`, at most `w` multiples lie below `n`. -/
theorem length_multiplesBelow_le (n w : Nat) (hw : 0 < w) :
    (multiplesBelow n ((n + w - 1) / w)).length ≤ w := by
  rw [length_multiplesBelow]
  rcases Nat.eq_zero_or_pos ((n + w - 1) / w) with h0 | hs
  · simp [h0]
  · -- `n ≤ w * s`, so `⌈n / s⌉ ≤ w`
    have hn : n ≤ (n + w - 1) / w * w := by
      have := @Nat.lt_div_mul_add (n + w - 1) w hw
      omega
    have : (n + (n + w - 1) / w - 1) / ((n + w - 1) / w) < w + 1 :=
      (Nat.div_lt_iff_lt_mul hs).mpr (by
        rw [Nat.succ_mul]
        have := Nat.mul_comm w ((n + w - 1) / w)
        omega)
    omega

theorem stride_pos {a b q : Int64} (h : stride a b = .ok q) : 1 ≤ q.toInt := by
  unfold stride quotient64 at h
  split at h
  · cases h
  · simp only [bind, Except.bind, pure, Except.pure, Except.ok.injEq] at h
    subst h
    split
    · decide
    · rename_i hq
      rw [Int64.lt_iff_toInt_lt] at hq
      have : (1 : Int64).toInt = 1 := rfl
      omega

/-- Without wrapping, the stride is `⌈n / w⌉`. -/
theorem stride_ofNat {n w : Nat} (hn : 0 < n) (hw : 0 < w) (h : n + w ≤ Nat.pow 2 63) :
    stride (Int64.ofNat n) (Int64.ofInt w) = .ok (Int64.ofInt ((n + w - 1) / w : Nat)) := by
  have h63 : (Nat.pow 2 63 : Int) = 2 ^ 63 := by simp [Nat.pow_eq]
  have hsum : Int64.ofNat n + Int64.ofInt w - 1 = Int64.ofInt ((n + w - 1 : Nat) : Int) := by
    rw [show ((n + w - 1 : Nat) : Int) = (n : Int) + w - 1 by omega, Int64.ofInt_sub,
      Int64.ofInt_add, Int64.ofInt_eq_ofNat]
    rfl
  have hw64 : (Int64.ofInt w).toInt = w := Int64.toInt_ofInt_of_le (by omega) (by omega)
  have hs64 : (Int64.ofInt ((n + w - 1 : Nat) : Int)).toInt = (n + w - 1 : Nat) :=
    Int64.toInt_ofInt_of_le (by omega) (by omega)
  have h0 : (0 : Int64).toInt = 0 := rfl
  have hm1 : (-1 : Int64).toInt = -1 := rfl
  have hne : Int64.ofInt w ≠ 0 := fun he => by
    have := congrArg Int64.toInt he
    omega
  have hne1 : Int64.ofInt w ≠ -1 := fun he => by
    have := congrArg Int64.toInt he
    omega
  have hq : (Int64.ofInt ((n + w - 1 : Nat) : Int) / Int64.ofInt w).toInt = ((n + w - 1) / w : Nat) := by
    rw [Int64.toInt_div_of_ne_right _ _ hne1, hs64, hw64, Int.tdiv_eq_ediv_of_nonneg (by omega)]
    omega
  have hq1 : 1 ≤ (n + w - 1) / w := (Nat.le_div_iff_mul_le hw).mpr (by omega)
  unfold stride quotient64
  rw [hsum, if_neg hne]
  simp only [bind, Except.bind, pure, Except.pure, Except.ok.injEq]
  have h1 : (1 : Int64).toInt = 1 := rfl
  have hlt : ¬ (Int64.ofInt ((n + w - 1 : Nat) : Int) / Int64.ofInt w < 1) := by
    rw [Int64.lt_iff_toInt_lt, hq, h1]
    omega
  have hle : (n + w - 1) / w ≤ n + w - 1 := Nat.div_le_self _ _
  rw [if_neg hlt, ← Int64.toInt_inj, hq, Int64.toInt_ofInt_of_le (by omega) (by omega)]

/-- The stride `nth` uses is positive. -/
theorem nth_stride_pos (a b : Int64) :
    0 < (match stride a b with | .ok s => s.toInt.toNat | .error _ => 1) := by
  split
  · rename_i q hq
    exact Int.lt_toNat.mpr (by have := stride_pos hq; omega)
  · exact Nat.one_pos

theorem nth_ok_inv {xs ys : Array Float} {nOut : Int} {j : List Nat} (h : nth xs ys nOut = .ok j) :
    ∃ s, 0 < s ∧ j = multiplesBelow xs.size s := by
  simp only [nth, ↓ite_throw_bind, ite_error_eq_ok, pure, Except.pure, Except.ok.injEq] at h
  exact ⟨_, nth_stride_pos _ _, h.2.2.2.symm⟩

theorem nth_eq_ok {xs ys : Array Float} {nOut : Int} (hlen : xs.size = ys.size) (hn : 0 < xs.size)
    (hout : 0 < nOut) :
    ∃ s, 0 < s ∧ nth xs ys nOut = .ok (multiplesBelow xs.size s) ∧
      ((xs.size : Int) + nOut ≤ Nat.pow 2 63 → s = (xs.size + nOut.toNat - 1) / nOut.toNat) := by
  simp only [nth, ↓ite_throw_bind]
  rw [if_neg (by omega), if_neg (by omega), if_neg (by omega)]
  refine ⟨_, nth_stride_pos _ _, rfl, ?_⟩
  · intro hwrap
    obtain ⟨w, rfl⟩ : ∃ w : Nat, nOut = w := ⟨nOut.toNat, by omega⟩
    simp only [Int.toNat_natCast]
    have h63 : Nat.pow 2 63 = 9223372036854775808 := rfl
    rw [stride_ofNat hn (by omega) (by omega)]
    have hle := Nat.div_le_self (xs.size + w - 1) w
    generalize (xs.size + w - 1) / w = q at hle ⊢
    dsimp only
    rw [Int64.toInt_ofInt_of_le (by omega) (by omega), Int.toNat_natCast]

theorem checkedOffsets_error {n : Nat} {nOut : Int} {e : SelectError}
    (h : checkedOffsets n nOut = .error e) : e.errorClass = .emptyBucket := by
  unfold checkedOffsets at h
  generalize (offsets n nOut).getD [] = off at h
  dsimp only at h
  split at h
  · cases h
    rfl
  split at h
  · cases h
    rfl
  · cases h

/-- Past its four checks, LTTB fails only for an empty bucket. -/
theorem lttb_error_emptyBucket {xs ys : Array Float} {nOut : Int} {e : SelectError}
    (hlen : xs.size = ys.size) (hout : 3 ≤ nOut) (hle : nOut ≤ xs.size)
    (h : lttb xs ys nOut = .error e) : e.errorClass = .emptyBucket := by
  rw [lttb_eq_map hlen hout hle] at h
  cases hB : checkedOffsets xs.size nOut with
  | error e' =>
    rw [hB] at h
    cases h
    exact checkedOffsets_error hB
  | ok B =>
    rw [hB] at h
    cases h

/-- Every index an algorithm keeps is the index of a point. -/
theorem Algorithm.lt_of_select_ok {a : Algorithm} {xs ys : Array Float} {w : Int} {j : List Nat}
    (h : a.select xs ys w = .ok j) : ∀ i ∈ j, i < xs.size := by
  cases a with
  | lttb =>
    obtain ⟨-, hout, hle, -⟩ := lttb_ok h
    obtain ⟨-, t, -, rfl, -, -, -, hmem⟩ := lttb_ok_buckets h
    intro i hi
    -- the first index, a pick inside a bucket, or the last index
    rcases List.mem_cons.mp hi with rfl | hi
    · omega
    rcases List.mem_append.mp hi with hi | hi
    · have := (hmem i hi).2
      omega
    · rw [List.mem_singleton.mp hi]
      omega
  | nth =>
    obtain ⟨s, hs, rfl⟩ := nth_ok_inv h
    exact fun i hi => lt_of_mem_multiplesBelow hs hi

/-- The indices an algorithm keeps strictly increase. -/
theorem Algorithm.pairwise_of_select_ok {a : Algorithm} {xs ys : Array Float} {w : Int}
    {j : List Nat} (h : a.select xs ys w = .ok j) : j.Pairwise (· < ·) := by
  cases a with
  | lttb => exact (lttb_ok_picks h).2.2.2
  | nth =>
    obtain ⟨s, hs, rfl⟩ := nth_ok_inv h
    exact pairwise_multiplesBelow _ hs

/-- On `n` points, with `0 < w < n` and at least the algorithm's least width, selection fails
only where LTTB meets an empty bucket. -/
theorem Algorithm.select_error {a : Algorithm} {xs ys : Array Float} {w : Int} {e : SelectError}
    (hlen : xs.size = ys.size) (hmin : a.minOutput ≤ w) (hpos : 0 < w) (hlt : w < xs.size)
    (h : a.select xs ys w = .error e) : a = .lttb ∧ e.errorClass = .emptyBucket := by
  cases a with
  | lttb => exact ⟨rfl, lttb_error_emptyBucket hlen hmin hlt.le h⟩
  | nth =>
    obtain ⟨s, -, hok, -⟩ := nth_eq_ok hlen (by omega) hpos
    change Decimation.nth xs ys w = .error e at h
    rw [hok] at h
    cases h

/-- Selection keeps at most `w` indices when the stride does not wrap. -/
theorem Algorithm.length_select_le {a : Algorithm} {xs ys : Array Float} {w : Int} {j : List Nat}
    (hlen : xs.size = ys.size) (hn : 0 < xs.size) (hpos : 0 < w)
    (hwrap : (xs.size : Int) + w ≤ Nat.pow 2 63) (h : a.select xs ys w = .ok j) :
    (j.length : Int) ≤ w := by
  cases a with
  | lttb => exact (lttb_ok_picks h).1.le
  | nth =>
    obtain ⟨s, -, hok, hs⟩ := nth_eq_ok hlen hn hpos
    change Decimation.nth xs ys w = .ok j at h
    obtain rfl : j = multiplesBelow xs.size s := Except.ok.inj (h.symm.trans hok)
    obtain ⟨w', rfl⟩ : ∃ w' : Nat, w = w' := ⟨w.toNat, by omega⟩
    rw [hs hwrap, Int.toNat_natCast]
    exact_mod_cast length_multiplesBelow_le xs.size w' (by omega)

/-! ## The rows a configuration keeps -/

namespace Config

/-- The configuration keeps every row before downsampling: it has no range, or its range is
`[-Inf, +Inf)`. -/
def keepsAll (c : Config) : Bool :=
  match c.range with
  | none => true
  | some r => r.unbounded

/-- The rows downsampling works on, in order: those whose x value lies in the range, or every
row when the configuration keeps all. -/
def keptRows (c : Config) (f : Frame) : List Nat :=
  match c.range with
  | some r => if r.unbounded then List.range f.rows else f.rowsIn r
  | none => List.range f.rows

theorem keptRows_of_keepsAll {c : Config} {f : Frame} (h : c.keepsAll) :
    c.keptRows f = List.range f.rows := by
  unfold keepsAll at h
  unfold keptRows
  cases hcr : c.range with
  | none => rfl
  | some r =>
    rw [hcr] at h
    exact if_pos h

theorem filter_eq_take {c : Config} (hv : c.validate = .ok ()) (f : Frame) :
    c.filter f = .ok (f.take (c.keptRows f)) := by
  obtain ⟨-, -, hr⟩ := validate_eq_ok.mp hv
  unfold filter keptRows
  cases hcr : c.range with
  | none => rw [f.take_range]
  | some r =>
    by_cases hu : r.unbounded
    · simp only [Frame.sliceX, hr r hcr, hu, bind, Except.bind, pure, Except.pure, if_true]
      rw [f.take_range]
      rfl
    · simp only [Frame.sliceX, hr r hcr, hu, bind, Except.bind, pure, Except.pure]
      rfl

end Config

/-- The values of column `k` at the given rows, booleans widened. -/
def Frame.valuesAt (f : Frame) (k : Nat) (rows : List Nat) : Array Float :=
  (rows.map ((f.columns.getD k Column.empty).floatAt)).toArray

@[simp]
theorem Frame.size_valuesAt (f : Frame) (k : Nat) (rows : List Nat) :
    (f.valuesAt k rows).size = rows.length := by
  simp [Frame.valuesAt]

theorem Frame.dimension_take_of_lt {f : Frame} {k : Nat} (hk : k < f.dimensions)
    (rows : List Nat) :
    ∃ col, (f.take rows).dimension k = .ok col ∧ col.toFloats = f.valuesAt k rows := by
  have hk' : 0 ≤ (k : Int) ∧ (k : Int).toNat < f.columns.length :=
    ⟨by omega, by simp only [Int.toNat_natCast]; exact hk⟩
  refine ⟨(f.columns.get ⟨k, hk⟩).take rows, ?_, ?_⟩
  · rw [Frame.dimension_take, Frame.dimension, dif_pos hk']
    rfl
  · rw [Column.toFloats_take, Frame.valuesAt, List.getD_eq_getElem _ _ hk]
    rfl

theorem Config.apply_eq {c : Config} (hv : c.validate = .ok ()) (f : Frame) :
    c.apply f =
      if ((c.keptRows f).length : Int) ≤ c.width then .ok (f.take (c.keptRows f))
      else if f.dimensions < 2 then .error (.missingDimensions f.dimensions)
      else match c.algorithm.select (f.valuesAt 0 (c.keptRows f)) (f.valuesAt 1 (c.keptRows f))
          c.width with
        | .ok j => .ok (f.take (j.map ((c.keptRows f).getD · 0)))
        | .error e => .error (.selection c.algorithm (c.keptRows f).length e) := by
  simp only [Config.apply, Config.select, hv, Config.filter_eq_take hv, ↓ite_throw_bind,
    Config.mapError_ok, bind, Except.bind, Frame.rows_take, Frame.dimensions_take]
  by_cases h1 : ((c.keptRows f).length : Int) ≤ c.width
  · simp only [h1, if_true]
    rfl
  simp only [h1, if_false]
  by_cases h2 : f.dimensions < 2
  · simp only [h2, if_true]
  simp only [h2, if_false]
  obtain ⟨xcol, hx, hxv⟩ := @Frame.dimension_take_of_lt f 0 (by omega) (c.keptRows f)
  obtain ⟨ycol, hy, hyv⟩ := @Frame.dimension_take_of_lt f 1 (by omega) (c.keptRows f)
  simp only [Nat.cast_zero] at hx
  simp only [Nat.cast_one] at hy
  simp only [hx, hy, Config.mapError_ok, hxv, hyv]
  cases hsel : c.algorithm.select (f.valuesAt 0 (c.keptRows f)) (f.valuesAt 1 (c.keptRows f))
    c.width with
  | error e => rfl
  | ok j =>
    have hlt : ∀ i ∈ j, i < (f.take (c.keptRows f)).rows := by
      simpa [Frame.valuesAt] using Algorithm.lt_of_select_ok hsel
    simp only [Config.mapError_ok, pure, Except.pure]
    rw [Frame.selectRows_ofNat _ hlt, Frame.take_take _ _ _ (by simpa using hlt)]
    rfl

/-! ## Downsampling under a configuration that builds -/

theorem map_getD_range (F : List Nat) : (List.range F.length).map (F.getD · 0) = F := by
  apply List.ext_getElem (by simp)
  intro i hi _
  simp [List.getD_eq_getElem?_getD, List.getElem?_eq_getElem (by simpa using hi)]

/-- Downsampling under a configuration that builds. Let `F` be the rows it works on: those whose
x value lies in the range, or all rows when there is no range or the range is `[-Inf, +Inf)`.
It fails only for a frame without a y column when `F` is longer than the width, or for an empty
bucket in LTTB. Otherwise its result holds, in every column, the rows `F[j]` for a strictly
increasing list `j` of positions in `F`: all of them when `F` fits the width (and then the frame
itself when every row is kept); the algorithm's picks from the x and y values on `F` when it
does not, at most the width of them when the stride does not wrap, and for LTTB exactly the
width of them, from the first to the last position. -/
theorem apply_build_keptRows {f : Frame} {w : Int} {opts : List (Option ConfigOption)}
    {c : Config}
    (hc : Config.build w opts = .ok c) :
    (∀ e, c.apply f = .error e →
      (f.dimensions < 2 ∧ w < (c.keptRows f).length) ∨
      (c.algorithm = .lttb ∧ ∃ e', e = .selection .lttb (c.keptRows f).length e' ∧
        e'.errorClass = .emptyBucket)) ∧
    ∀ u, c.apply f = .ok u → ∃ j : List Nat,
      j.Pairwise (· < ·) ∧ (∀ i ∈ j, i < (c.keptRows f).length) ∧
      u = f.take (j.map ((c.keptRows f).getD · 0)) ∧
      (((c.keptRows f).length : Int) ≤ w →
        j = List.range (c.keptRows f).length ∧ (c.keepsAll → u = f)) ∧
      (w < (c.keptRows f).length →
        c.algorithm.select (f.valuesAt 0 (c.keptRows f)) (f.valuesAt 1 (c.keptRows f)) w = .ok j ∧
        (((c.keptRows f).length : Int) + w ≤ Nat.pow 2 63 → (u.rows : Int) ≤ w) ∧
        (c.algorithm = .lttb → (u.rows : Int) = w ∧ j.head? = some 0 ∧
          j.getLast? = some ((c.keptRows f).length - 1))) := by
  have hv := Config.build_ok_valid _ _ _ hc
  obtain rfl := Config.build_width hc
  obtain ⟨hpos, hmin, -⟩ := Config.validate_eq_ok.mp hv
  rw [Config.apply_eq hv]
  generalize hF : c.keptRows f = F
  have hsz : ∀ k, (f.valuesAt k F).size = F.length := fun k => Frame.size_valuesAt f k F
  constructor
  · intro e he
    split at he
    · cases he
    · rename_i hfit
      split at he
      · rename_i hdim
        exact .inl ⟨hdim, by omega⟩
      · split at he
        · cases he
        · rename_i e' hsel
          cases he
          obtain ⟨halg, hcls⟩ := Algorithm.select_error (by rw [hsz, hsz]) hmin hpos
            (by rw [hsz]; omega) hsel
          exact .inr ⟨halg, e', by rw [halg], hcls⟩
  · intro u hu
    split at hu
    · -- `F` fits the width: all of it is kept
      cases hu
      refine ⟨List.range F.length, List.pairwise_lt_range, fun i hi => List.mem_range.mp hi,
        by rw [map_getD_range], fun _ => ⟨rfl, fun hall => ?_⟩, fun h => by omega⟩
      rw [← hF, Config.keptRows_of_keepsAll hall, Frame.take_range]
    · rename_i hfit
      split at hu
      · cases hu
      · split at hu
        · rename_i j hsel
          cases hu
          have hlen : (f.valuesAt 0 F).size = (f.valuesAt 1 F).size := by rw [hsz, hsz]
          have hlt : ∀ i ∈ j, i < F.length := by
            simpa [hsz] using Algorithm.lt_of_select_ok hsel
          have hrows : (f.take (j.map (F.getD · 0))).rows = j.length := by simp
          refine ⟨j, Algorithm.pairwise_of_select_ok hsel, hlt, rfl, fun h => absurd h hfit,
            fun _ => ⟨hsel, fun hwrap => ?_, fun hl => ?_⟩⟩
          · rw [hrows]
            exact Algorithm.length_select_le hlen (by rw [hsz]; omega) hpos (by rw [hsz]; omega) hsel
          · rw [hl] at hsel
            obtain ⟨hl, h0, hlast, -⟩ := lttb_ok_picks hsel
            refine ⟨by rw [hrows]; exact hl, ?_, ?_⟩
            · rw [List.head?_eq_getElem?]
              exact h0
            · rw [List.getLast?_eq_getElem?, hlast, hsz]
        · cases hu

/-- Six rows, one of them with a NaN x and one past the range `[0, 4)`, under an absent option
and the range: the four rows in the range are more than three, so LTTB picks three of them. -/
theorem apply_build_keptRows_lttb :
    let f : Frame := ⟨[Column.ofFloats "x".toUTF8 #[0, 0 / 0, 1, 2, 3, 5],
      Column.ofFloats "y".toUTF8 #[4, 1, 0 / 0, 3, 2, 7]], 6, by simp, by decide⟩
    let c : Config := ⟨3, .lttb, some ⟨0, 4⟩⟩
    Config.build 3 [none, some (.xRange ⟨0, 4⟩)] = .ok c ∧
    (∀ e, c.apply f = .error e →
      (f.dimensions < 2 ∧ (3 : Int) < (c.keptRows f).length) ∨
      (c.algorithm = .lttb ∧ ∃ e', e = .selection .lttb (c.keptRows f).length e' ∧
        e'.errorClass = .emptyBucket)) ∧
    ∀ u, c.apply f = .ok u → ∃ j : List Nat,
      j.Pairwise (· < ·) ∧ (∀ i ∈ j, i < (c.keptRows f).length) ∧
      u = f.take (j.map ((c.keptRows f).getD · 0)) ∧
      (((c.keptRows f).length : Int) ≤ 3 →
        j = List.range (c.keptRows f).length ∧ (c.keepsAll → u = f)) ∧
      ((3 : Int) < (c.keptRows f).length →
        c.algorithm.select (f.valuesAt 0 (c.keptRows f)) (f.valuesAt 1 (c.keptRows f)) 3 = .ok j ∧
        (((c.keptRows f).length : Int) + 3 ≤ Nat.pow 2 63 → (u.rows : Int) ≤ 3) ∧
        (c.algorithm = .lttb → (u.rows : Int) = 3 ∧ j.head? = some 0 ∧
          j.getLast? = some ((c.keptRows f).length - 1))) :=
  have hc : Config.build 3 [none, some (.xRange ⟨0, 4⟩)] = .ok ⟨3, .lttb, some ⟨0, 4⟩⟩ := by rfl
  ⟨hc, apply_build_keptRows hc⟩

/-- Over `[-Inf, +Inf)` the rows are not those the range contains: downsampling
`x = [NaN, 1, 2]` to one point by Nth keeps row 0, whose x is NaN. -/
theorem apply_unboundedRange_keepsNaN :
    let f : Frame := ⟨[Column.ofFloats "x".toUTF8 #[0 / 0, 1, 2],
      Column.ofFloats "y".toUTF8 #[5, 6, 7]], 3, by simp, by decide⟩
    let c : Config := ⟨1, .nth, some XRange.all⟩
    Config.build 1 [some (.algorithmCode 2), some (.xRange XRange.all)] = .ok c ∧
      f.rowsIn XRange.all = [1, 2] ∧ c.apply f = .ok (f.take [0]) :=
  ⟨by rfl, by rfl, by rfl⟩

end Decimation
