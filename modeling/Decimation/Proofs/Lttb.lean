import Mathlib.Data.List.Chain
import Decimation.Selection.Lttb
/-!
# The shape of an LTTB selection

Whenever `lttb` succeeds, its picks are as many as asked for, start at `0`, end at the last
index and rise strictly, and the pick made in bucket `k` lies between the boundaries `k` and
`k + 1` of `offsets`. This holds for every float value of the series, NaN and the infinities
included: the values only decide which point of a bucket wins, never whether the winner lies in
the bucket.

Three facts carry it.

* The scan for the largest measure returns a position of the bucket it scans
  (`argmaxArea_lt_length`), since it only ever moves its best position to the point it is
  looking at.
* The interior picks lie one in each bucket (`pickBuckets_inBuckets`), by induction along the
  boundaries, once consecutive boundaries rise.
* The first boundary is `1`. For a finite width `w` the product `0 * w` is a zero, so the first
  boundary is the integer part of `1`; for an infinite or NaN width both `1 + 0 * w` and
  `1 + 1 * w` have no integer part, the first two boundaries coincide, and the empty-bucket
  check refuses them (`firstBoundary_eq_one_or`).
-/

namespace Decimation

/-! ## The scan for the largest measure -/

section Argmax

variable (prev avg : Point)

lemma argmaxStep_next (st : Nat × Float × Nat) (p : Point) :
    (argmaxStep prev avg st p).2.2 = st.2.2 + 1 := by
  simp only [argmaxStep]
  split <;> rfl

/-- The scan keeps its best position, or moves it to one of the points it has looked at. -/
lemma foldl_argmaxStep_best (pts : List Point) (st : Nat × Float × Nat) :
    (pts.foldl (argmaxStep prev avg) st).1 = st.1 ∨
      (st.2.2 ≤ (pts.foldl (argmaxStep prev avg) st).1 ∧
        (pts.foldl (argmaxStep prev avg) st).1 < st.2.2 + pts.length) := by
  induction pts generalizing st with
  | nil => simp
  | cons p pts ih =>
    simp only [List.foldl_cons, List.length_cons]
    -- after one step the best position is the old one or the point just looked at
    have hstep : (argmaxStep prev avg st p).1 = st.1 ∨ (argmaxStep prev avg st p).1 = st.2.2 := by
      simp only [argmaxStep]
      split
      · exact .inr rfl
      · exact .inl rfl
    have hnext := argmaxStep_next prev avg st p
    rcases ih (argmaxStep prev avg st p) with h | ⟨hlo, hhi⟩ <;> rw [hnext] at *
    · rcases hstep with h' | h'
      · exact .inl (h.trans h')
      · exact .inr ⟨by omega, by omega⟩
    · exact .inr ⟨by omega, by omega⟩

/-- The winner of a bucket is one of its points. -/
theorem argmaxArea_lt_length {pts : List Point} (h : pts ≠ []) :
    argmaxArea prev avg pts < pts.length := by
  have hpos : 0 < pts.length := List.length_pos_iff.mpr h
  rcases foldl_argmaxStep_best prev avg pts (0, negInfinity, 0) with h0 | ⟨-, hlt⟩
  · rw [argmaxArea, h0]
    exact hpos
  · rw [argmaxArea]
    simpa using hlt

end Argmax

@[simp]
lemma length_bucket (xs ys : Array Float) (lo hi : Nat) :
    (Series.bucket xs ys lo hi).length = hi - lo := by
  simp [Series.bucket]

/-! ## One pick in each bucket -/

/-- The entries of `s` lie one in each bucket of the boundaries `B`: entry `k` in
`[B[k], B[k + 1])`. -/
structure InBuckets (B s : List Nat) : Prop where
  length_eq : s.length + 1 = B.length
  lower : ∀ k (hk : k < s.length), B.getD k 0 ≤ s[k]
  upper : ∀ k (hk : k < s.length), s[k] < B.getD (k + 1) 0

namespace InBuckets

lemma cons {lo hi a : Nat} {B s : List Nat} (h : InBuckets (hi :: B) s) (hlo : lo ≤ a)
    (hhi : a < hi) : InBuckets (lo :: hi :: B) (a :: s) where
  length_eq := by simp [← h.length_eq]
  lower k hk := by
    cases k with
    | zero => simpa using hlo
    | succ k => simpa using h.lower k (by simpa using hk)
  upper k hk := by
    cases k with
    | zero => simpa using hhi
    | succ k => simpa using h.upper k (by simpa using hk)

end InBuckets

/-- With rising boundaries, the interior picks lie one in each bucket, whatever the values. -/
theorem pickBuckets_inBuckets (xs ys : Array Float) (last : Point) (prev : Nat) {B : List Nat}
    (hB : B.IsChain (· < ·)) (hlen : 2 ≤ B.length) :
    InBuckets B (pickBuckets xs ys last prev B) := by
  fun_induction pickBuckets xs ys last prev B with
  | case1 prev lo mid hi rest avg a ih =>
    rw [List.isChain_cons_cons] at hB
    have hne : Series.bucket xs ys lo mid ≠ [] := by
      rw [← List.length_pos_iff, length_bucket]
      omega
    have hwin := argmaxArea_lt_length (Series.pointAt xs ys prev) avg hne
    rw [length_bucket] at hwin
    exact (ih hB.2 (by simp)).cons (by omega) (by omega)
  | case2 prev lo hi =>
    rw [List.isChain_cons_cons] at hB
    have hne : Series.bucket xs ys lo hi ≠ [] := by
      rw [← List.length_pos_iff, length_bucket]
      omega
    have hwin := argmaxArea_lt_length (Series.pointAt xs ys prev) last hne
    rw [length_bucket] at hwin
    refine ⟨rfl, fun k hk => ?_, fun k hk => ?_⟩
    · obtain rfl : k = 0 := by simpa using hk
      simp
    · obtain rfl : k = 0 := by simpa using hk
      simp
      omega
  | case3 B prev hB3 hB2 =>
    -- a list of at least two boundaries has one of the two shapes above
    exfalso
    match B, hlen with
    | lo :: mid :: hi :: rest, _ => exact hB3 lo mid hi rest rfl
    | [lo, hi], _ => exact hB2 lo hi rfl

namespace InBuckets

variable {B s : List Nat}

lemma getD_eq (hk : k < B.length) : B.getD k 0 = B[k] := by
  simp [List.getD_eq_getElem?_getD, hk]

/-- Picks in rising buckets rise strictly. -/
theorem pairwise (h : InBuckets B s) (hB : B.Pairwise (· < ·)) : s.Pairwise (· < ·) := by
  have hlen := h.length_eq
  rw [List.pairwise_iff_getElem]
  intro i j hi hj hij
  -- `s[i] < B[i + 1] ≤ B[j] ≤ s[j]`
  have hmid : B.getD (i + 1) 0 ≤ B.getD j 0 := by
    rw [getD_eq (by omega), getD_eq (by omega)]
    rcases Nat.lt_or_eq_of_le (Nat.succ_le_of_lt hij) with hlt | rfl
    · exact Nat.le_of_lt (List.pairwise_iff_getElem.mp hB _ _ _ _ hlt)
    · exact Nat.le_refl _
  have := h.upper i hi
  have := h.lower j hj
  omega

/-- Every pick lies between the first and the last boundary. -/
theorem mem_bounds (h : InBuckets B s) (hB : B.Pairwise (· < ·)) {a : Nat} (ha : a ∈ s) :
    B.getD 0 0 ≤ a ∧ a < B.getD (B.length - 1) 0 := by
  have hlen := h.length_eq
  obtain ⟨k, hk, rfl⟩ := List.getElem_of_mem ha
  have hle : ∀ i j, i ≤ j → j < B.length → B.getD i 0 ≤ B.getD j 0 := by
    intro i j hij hj
    rw [getD_eq (by omega), getD_eq hj]
    rcases Nat.lt_or_eq_of_le hij with hlt | rfl
    · exact Nat.le_of_lt (List.pairwise_iff_getElem.mp hB _ _ _ _ hlt)
    · exact Nat.le_refl _
  have h1 := hle 0 k (Nat.zero_le k) (by omega)
  have h2 := hle (k + 1) (B.length - 1) (by omega) (by omega)
  have := h.lower k hk
  have := h.upper k hk
  omega

end InBuckets

/-! ## The boundaries -/

lemma isChain_of_firstEmptyBucket (i : Nat) (off : List Int) (h : firstEmptyBucket? i off = none) :
    off.IsChain (· < ·) := by
  fun_induction firstEmptyBucket? i off with
  | case1 => simp at h
  | case2 i lo hi rest hlt ih =>
    rw [List.isChain_cons_cons]
    exact ⟨by omega, ih h⟩
  | case3 off i hshape =>
    match off, hshape with
    | [], _ => exact .nil
    | [a], _ => exact .singleton a
    | lo :: hi :: rest, hshape => exact absurd rfl (hshape lo hi rest)

/-- For a finite width `w`, `1 + 0 * w` is `1`; otherwise `1 + 0 * w` and `1 + 1 * w` have no
integer part and give the same 64-bit integer. -/
theorem firstBoundary_eq_one_or (w : Float) :
    truncToInt64 (1 + Float.ofNat 0 * w) = 1 ∨
      truncToInt64 (1 + Float.ofNat 0 * w) = truncToInt64 (1 + Float.ofNat 1 * w) := by
  -- a product only looks at the unpacked forms of its factors
  have hmul : ∀ a : Float, a * w = Float.ofModel (Float.Model.pack
      (Float.Model.UnpackedFloat.mul Float.Model.Format.binary64 a.toModel.unpack
        w.toModel.unpack)) := fun _ => rfl
  have h0 : (Float.ofNat 0).toModel.unpack = .zero .positive := by rfl
  rw [hmul, hmul, h0]
  generalize w.toModel.unpack = u
  cases u with
  | infinity s => cases s <;> decide
  | notANumber => decide
  | zero s => cases s <;> decide
  | finite s m e hm =>
    left
    -- zero times a finite number is a zero, whatever its mantissa and exponent
    have hz : Float.Model.UnpackedFloat.mul Float.Model.Format.binary64 (.zero .positive)
        (.finite s m e hm) = .zero (.positive * s) := rfl
    rw [hz]
    cases s <;> decide

/-- The boundaries of at least three points and three output points. -/
lemma offsets_eq {n nOut : Int} (hn : 3 ≤ n) (hout : 3 ≤ nOut) :
    offsets n nOut = some ((List.range (nOut - 1).toNat).map fun i =>
      (truncToInt64 (1 + Float.ofNat i * (intToFloat (n - 2) / intToFloat (nOut - 2)))).toInt) := by
  have h1 : ¬ nOut < 3 := by omega
  have h2 : ¬ n < 3 := by omega
  simp [offsets, h1, h2]

/-- A successful boundary check found no bucket that fails to rise and no boundary past the
last index, and hands the boundaries on as they are. -/
lemma checkedOffsets_ok {n : Nat} {nOut : Int} {B : List Nat}
    (h : checkedOffsets n nOut = .ok B) :
    firstEmptyBucket? 0 ((offsets n nOut).getD []) = none ∧
      ((offsets n nOut).getD []).getLastD 0 ≤ (n : Int) - 1 ∧
      B = ((offsets n nOut).getD []).map Int.toNat := by
  unfold checkedOffsets at h
  generalize (offsets n nOut).getD [] = off at h ⊢
  dsimp only at h
  split at h
  · exact nomatch h
  rename_i hf
  split at h
  · exact nomatch h
  rename_i hl
  cases h
  refine ⟨?_, by omega, rfl⟩
  cases hn : firstEmptyBucket? 0 off with
  | none => rfl
  | some e => exact absurd hn (hf e.1 e.2.1 e.2.2)

/-- The boundaries that pass the check rise, are all at least `1`, and end by the last index. -/
lemma checkedOffsets_ok_bounds {n : Nat} {nOut : Int} {B : List Nat} (hn : 3 ≤ n)
    (hout : 3 ≤ nOut) (h : checkedOffsets n nOut = .ok B) :
    ∃ off : List Int, offsets n nOut = some off ∧ B = off.map Int.toNat ∧
      off.length = (nOut - 1).toNat ∧ off.Pairwise (· < ·) ∧ (∀ a ∈ off, 1 ≤ a) ∧
      off.getLastD 0 ≤ (n : Int) - 1 := by
  obtain ⟨hf, hlast, rfl⟩ := checkedOffsets_ok h
  rw [offsets_eq (by omega) hout] at hf hlast ⊢
  set w := intToFloat (n - 2) / intToFloat (nOut - 2)
  set off := (List.range (nOut - 1).toNat).map fun i => (truncToInt64 (1 + Float.ofNat i * w)).toInt
  have hlen : off.length = (nOut - 1).toNat := by simp [off]
  have hpw : off.Pairwise (· < ·) := (isChain_of_firstEmptyBucket 0 off hf).pairwise
  -- the first two boundaries differ, so the first is `1`
  have hlen1 : 1 < off.length := by omega
  have h01 : off[0] < off[1] :=
    List.pairwise_iff_getElem.mp hpw 0 1 (by omega) hlen1 Nat.zero_lt_one
  have hfirst : off[0] = 1 := by
    simp only [off, List.getElem_map, List.getElem_range] at h01 ⊢
    rcases firstBoundary_eq_one_or w with h1 | h1
    · rw [h1]
      rfl
    · rw [h1] at h01
      exact absurd h01 (Int.lt_irrefl _)
  refine ⟨off, rfl, rfl, hlen, hpw, fun a ha => ?_, hlast⟩
  obtain ⟨k, hk, rfl⟩ := List.getElem_of_mem ha
  rcases Nat.eq_zero_or_pos k with rfl | hkpos
  · exact Int.le_of_eq hfirst.symm
  · have := List.pairwise_iff_getElem.mp hpw 0 k (by omega) hk hkpos
    omega

/-- A successful `lttb` passed its four checks and the boundary check. -/
lemma lttb_ok {xs ys : Array Float} {nOut : Int} {s : List Nat} (h : lttb xs ys nOut = .ok s) :
    xs.size = ys.size ∧ 3 ≤ nOut ∧ nOut ≤ xs.size ∧ ∃ B, checkedOffsets xs.size nOut = .ok B ∧
      s = 0 :: pickBuckets xs ys (Series.pointAt xs ys (xs.size - 1)) 0 B ++ [xs.size - 1] := by
  unfold lttb at h
  dsimp only at h
  split at h
  · exact nomatch h
  split at h
  · exact nomatch h
  split at h
  · exact nomatch h
  split at h
  · exact nomatch h
  cases hB : checkedOffsets xs.size nOut with
  | error e =>
    rw [hB] at h
    exact nomatch h
  | ok B =>
    rw [hB] at h
    cases h
    exact ⟨by omega, by omega, by omega, B, rfl, rfl⟩

/-- Past its four checks, `lttb` is the boundary check followed by the picks. -/
theorem lttb_eq_map {xs ys : Array Float} {nOut : Int} (hlen : xs.size = ys.size)
    (hout : 3 ≤ nOut) (hle : nOut ≤ xs.size) :
    lttb xs ys nOut = (checkedOffsets xs.size nOut).map fun B =>
      0 :: pickBuckets xs ys (Series.pointAt xs ys (xs.size - 1)) 0 B ++ [xs.size - 1] := by
  have h1 : ¬ (xs.size ≠ ys.size) := by omega
  have h2 : ¬ (xs.size < 2) := by omega
  have h3 : ¬ (nOut < 3) := by omega
  have h4 : ¬ (nOut > xs.size) := by omega
  unfold lttb
  simp only [h1, h2, h3, h4, ↓reduceIte]
  cases checkedOffsets xs.size nOut <;> rfl

/-! ## The shape -/

/-- A successful `lttb` keeps `0`, one pick per bucket of the checked boundaries, and the last
index; the boundaries rise as natural numbers, and every pick lies strictly between the first
and the last index. -/
lemma lttb_ok_buckets {xs ys : Array Float} {nOut : Int} {s : List Nat}
    (h : lttb xs ys nOut = .ok s) :
    ∃ off t, offsets xs.size nOut = some off ∧ s = 0 :: t ++ [xs.size - 1] ∧
      InBuckets (off.map Int.toNat) t ∧ (off.map Int.toNat).Pairwise (· < ·) ∧
      (∀ k (hk : k < off.length), ((off.map Int.toNat).getD k 0 : Int) = off[k]) ∧
      ∀ a ∈ t, 0 < a ∧ a < xs.size - 1 := by
  obtain ⟨-, hout, hle, B, hB, rfl⟩ := lttb_ok h
  obtain ⟨off, hoff, rfl, hlen, hpw, hpos, hlast⟩ :=
    checkedOffsets_ok_bounds (by omega) hout hB
  set t := pickBuckets xs ys (Series.pointAt xs ys (xs.size - 1)) 0 (off.map Int.toNat)
  -- the boundaries are positive, so they rise as natural numbers too
  have hcast : ∀ k (hk : k < off.length), ((off.map Int.toNat).getD k 0 : Int) = off[k] := by
    intro k hk
    have := hpos _ (List.getElem_mem hk)
    simp [hk]
    omega
  have hBpw : (off.map Int.toNat).Pairwise (· < ·) := by
    rw [List.pairwise_map]
    exact hpw.imp_of_mem fun ha _ hab => by have := hpos _ ha; omega
  have hin : InBuckets (off.map Int.toNat) t :=
    pickBuckets_inBuckets _ _ _ _ (List.isChain_iff_pairwise.mpr hBpw) (by simp; omega)
  have htlen : t.length + 1 = off.length := by simpa using hin.length_eq
  refine ⟨off, t, hoff, rfl, hin, hBpw, hcast, fun a ha => ?_⟩
  obtain ⟨h1, h2⟩ := hin.mem_bounds hBpw ha
  have e1 := hcast 0 (by omega)
  have e2 := hcast (off.length - 1) (by omega)
  have hfirst := hpos _ (List.getElem_mem (show 0 < off.length by omega))
  have hl : off.getLastD 0 = off[off.length - 1] := by
    rw [List.getLastD_eq_getLast?, List.getLast?_eq_getElem?]
    simp [show off.length - 1 < off.length by omega]
  simp only [List.length_map] at h2
  omega

/-- Whenever LTTB succeeds, it keeps as many indices as asked for, the first and the last index
among them, in strictly increasing order. -/
lemma lttb_ok_picks {xs ys : Array Float} {nOut : Int} {s : List Nat}
    (h : lttb xs ys nOut = .ok s) :
    (s.length : Int) = nOut ∧ s[0]? = some 0 ∧ s[s.length - 1]? = some (xs.size - 1) ∧
      s.Pairwise (· < ·) := by
  obtain ⟨-, hout, hle, B, hB, -⟩ := lttb_ok h
  obtain ⟨off, t, hoff, rfl, hin, hBpw, -, hmem⟩ := lttb_ok_buckets h
  obtain ⟨off', hoff', -, hlen, -⟩ := checkedOffsets_ok_bounds (by omega) hout hB
  obtain rfl : off = off' := Option.some.inj (hoff.symm.trans hoff')
  have htlen : t.length + 1 = off.length := by simpa using hin.length_eq
  refine ⟨by simp; omega, by simp, by simp, ?_⟩
  rw [List.pairwise_append, List.pairwise_cons]
  refine ⟨⟨fun a ha => (hmem a ha).1, hin.pairwise hBpw⟩, List.pairwise_singleton _ _, ?_⟩
  intro a ha b hb
  rw [List.mem_singleton.mp hb]
  rcases List.mem_cons.mp ha with rfl | ha
  · omega
  · exact (hmem a ha).2

/-- Whenever LTTB succeeds, it keeps as many indices as asked for, the first and the last index
among them, in strictly increasing order, and the `k`-th interior index lies in bucket `k`:
between boundaries `k` and `k + 1` of `offsets`. -/
theorem lttb_ok_shape {xs ys : Array Float} {nOut : Int} {s : List Nat}
    (h : lttb xs ys nOut = .ok s) :
    (s.length : Int) = nOut ∧ s[0]? = some 0 ∧ s[s.length - 1]? = some (xs.size - 1) ∧
      s.Pairwise (· < ·) ∧
      ∃ off, offsets xs.size nOut = some off ∧ ∀ k (hk : k + 1 < off.length),
        off[k] ≤ (s.getD (k + 1) 0 : Int) ∧ (s.getD (k + 1) 0 : Int) < off[k + 1] := by
  obtain ⟨hlen, h0, hlast, hpw⟩ := lttb_ok_picks h
  obtain ⟨off, t, hoff, rfl, hin, -, hcast, -⟩ := lttb_ok_buckets h
  refine ⟨hlen, h0, hlast, hpw, off, hoff, fun k hk => ?_⟩
  have htlen : t.length + 1 = off.length := by simpa using hin.length_eq
  have hkt : k < t.length := by omega
  have hs : (0 :: t ++ [xs.size - 1]).getD (k + 1) 0 = t[k] := by
    simp [List.getElem?_append_left hkt, hkt]
  rw [hs, ← hcast k (by omega), ← hcast (k + 1) hk]
  exact ⟨by exact_mod_cast hin.lower k hkt, by exact_mod_cast hin.upper k hkt⟩

set_option maxRecDepth 20000 in
/-- Seven points with two NaN values and a negative infinity among the y values, four picks:
`[0, 1, 3, 6]`, one in each of the buckets `[1, 3)` and `[3, 6)`. -/
theorem lttb_ok_shape_nonFinite :
    let xs : Array Float := #[0, 1, 2, 3, 4, 5, 6]
    let ys : Array Float := #[0, 0 / 0, 7, -1 / 0, 2, 0 / 0, 1]
    let s := [0, 1, 3, 6]
    lttb xs ys 4 = .ok s ∧
      ((s.length : Int) = 4 ∧ s[0]? = some 0 ∧ s[s.length - 1]? = some (xs.size - 1) ∧
        s.Pairwise (· < ·) ∧
        ∃ off, offsets xs.size 4 = some off ∧ ∀ k (hk : k + 1 < off.length),
          off[k] ≤ (s.getD (k + 1) 0 : Int) ∧ (s.getD (k + 1) 0 : Int) < off[k + 1]) :=
  have h : lttb #[0, 1, 2, 3, 4, 5, 6] #[0, 0 / 0, 7, -1 / 0, 2, 0 / 0, 1] 4 = .ok [0, 1, 3, 6] :=
    by rfl
  ⟨h, lttb_ok_shape h⟩

end Decimation
