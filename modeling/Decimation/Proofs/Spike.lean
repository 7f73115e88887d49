import Mathlib
import Decimation.Proofs.Offsets
import Decimation.Proofs.Argmax
/-!
# A lone spike

The series of `n` points at `x = 0, 1, …, n - 1` that is zero except for a finite nonzero value
`v` at position `k`. Main statement: while `n * nOut ≤ 2^50` and `n * n ≤ 2^51 * (nOut - 2)`,
so that the boundaries are sound and each bucket's positions sum exactly, LTTB keeps the spike
exactly when some bucket holds it, that is unless it sits at `n - 2` and the last boundary is `n - 2`
(`lttb_keeps_spike_iff`). For 17 points and 13 output points the last boundary is 15, and a spike
at 15 is dropped.

In the spike's bucket every other point measures `+0` and the spike a positive number, so the
scan for the largest measure stops at the spike (`argmaxArea_eq_of_signed`). That rests on the
frame the bucket is measured against: the pick before it and the centroid after it lie on the
zero line, the centroid at least one to the right (`FlatFrame`). Then the rise is `+0`, the
constant term is `+0`, the run is a float above one half, and a measure is the absolute value of
the point's ordinate times the run (`FlatFrame.measure_eq`). A centroid of points of the zero
line lies on it, its abscissa rounded from a mean that is exact while the bucket's width times
`n` stays below `2^53` (`centroid_flat`); the last point, which stands in for the centroid of the last bucket, lies on
it unless it is the spike. Along the buckets, the picks before the spike's bucket lie left of it
(`mem_pickBuckets_spike`).
-/
namespace Decimation

open Float.Model Float.Model.UnpackedFloat

/-! ## The series -/

/-- The positions `0, 1, …, n - 1`. -/
def positions (n : ℕ) : Array Float := (Array.range n).map Float.ofNat

/-- `n` values, zero except for `v` at position `k`. -/
def spike (n k : ℕ) (v : Float) : Array Float :=
  (Array.range n).map fun i => if i = k then v else 0

@[simp]
theorem size_positions (n : ℕ) : (positions n).size = n := by
  simp [positions]

@[simp]
theorem size_spike (n k : ℕ) (v : Float) : (spike n k v).size = n := by
  simp [spike]

theorem pointAt_spike {n k i : ℕ} {v : Float} (hi : i < n) :
    Series.pointAt (positions n) (spike n k v) i = ⟨Float.ofNat i, if i = k then v else 0⟩ := by
  simp [Series.pointAt, positions, spike, Array.getD, hi]

/-! ## The measure against a flat frame -/

/-- A point on the zero line at the natural abscissa `a`. -/
structure OnZeroLine (p : Point) (a : ℕ) : Prop where
  x : NatValue p.x a
  y : p.y.toModel.unpack = .zero .positive

/-- A previous pick at `a` and a centroid at `A` on the zero line, the centroid at least one to
the right of the pick. -/
structure FlatFrame (prev avg : Point) (a : ℕ) (A : ℚ) : Prop where
  prev_on : OnZeroLine prev a
  avg_x : PosValue avg.x A
  avg_y : avg.y.toModel.unpack = .zero .positive
  gap : (a : ℚ) + 1 ≤ A
  avg_le : A ≤ 2 ^ 1022

namespace FlatFrame

variable {prev avg p : Point} {a i : ℕ} {A : ℚ}

/-- The run from the pick to the centroid is a positive float above one half. -/
theorem dx (h : FlatFrame prev avg a A) : ∃ D, PosValue (avg.x - prev.x) D ∧ 1 / 2 < D := by
  have hA := h.avg_x
  rcases h.prev_on.x with ⟨rfl, hz⟩ | ⟨ha, hp⟩
  · refine ⟨A, by rw [sub_zero_eq hz hA.zeroNeutral]; exact hA, ?_⟩
    have := h.gap
    push_cast at this
    linarith
  · have hgap := h.gap
    have hlo : 1 / 2 ≤ A - a := by linarith
    have hhi : A - a ≤ 2 ^ 1022 := (sub_le_self A (Nat.cast_nonneg a)).trans h.avg_le
    obtain ⟨D, hD, hDe⟩ := exists_roundsTo_of_half_le hlo hhi
    refine ⟨D, hA.sub hp (by linarith) hD, ?_⟩
    -- the rounding moves a run of at least one by far less than one half
    have he := (abs_le.mp hDe).1
    have hle : (A - a) / 2 ^ 53 ≤ (A - a) / 2 :=
      div_le_div_of_nonneg_left (by linarith) (by norm_num) (by norm_num)
    linarith

/-- The product of the point's abscissa with the rise, added to the constant term, drops out:
the measure is the absolute value of the point's ordinate times the run. -/
theorem measure_eq (h : FlatFrame prev avg a A) (hx : NatValue p.x i)
    (hq : ZeroNeutral (p.y * (avg.x - prev.x))) :
    triangleMeasure prev avg p = (p.y * (avg.x - prev.x)).abs := by
  have hdy : (p.x * (prev.y - avg.y)).toModel.unpack = .zero .positive := by
    rw [sub_zero_eq h.avg_y (zeroNeutral_of_zero h.prev_on.y)]
    exact hx.mul_zero h.prev_on.y
  have hc : (prev.x * avg.y - avg.x * prev.y).toModel.unpack = .zero .positive := by
    have h2 : (avg.x * prev.y).toModel.unpack = .zero .positive := h.avg_x.mul_zero h.prev_on.y
    have h1 : (prev.x * avg.y).toModel.unpack = .zero .positive := h.prev_on.x.mul_zero h.avg_y
    rw [sub_zero_eq h2 (zeroNeutral_of_zero h1)]
    exact h1
  show (p.x * (prev.y - avg.y) + p.y * (avg.x - prev.x) + (prev.x * avg.y - avg.x * prev.y)).abs = _
  rw [zero_add_eq hdy hq, add_zero_eq hc hq]

/-- A point on the zero line measures a positive zero. -/
theorem measure_flat (h : FlatFrame prev avg a A) (hp : OnZeroLine p i) :
    (triangleMeasure prev avg p).toModel.unpack = .zero .positive := by
  obtain ⟨D, hD, -⟩ := h.dx
  have hq := zero_mul_posValue hp.y hD
  rw [h.measure_eq hp.x (zeroNeutral_of_zero hq)]
  exact abs_zero_unpack hq

/-- A point of finite nonzero ordinate measures a positive number, finite or infinite. -/
theorem measure_signed (h : FlatFrame prev avg a A) (hx : NatValue p.x i) {s : Sign} {m : ℕ}
    {e : ℤ} {hm : 0 < m} (hy : p.y.toModel.unpack = .finite s m e hm) :
    Signed (triangleMeasure prev avg p) .positive := by
  obtain ⟨D, hD, hD2⟩ := h.dx
  have hq := signed_mul_posValue hy hD hD2
  rw [h.measure_eq hx hq.zeroNeutral]
  exact hq.abs

end FlatFrame

/-! ## The scan for the largest measure -/

/-- Among points of measure `+0`, the scan finds the one point of positive measure: the winner's
measure is not exceeded by the spike's, and every `+0` is. -/
theorem argmaxArea_eq_of_signed {prev avg : Point} {pts : List Point} {j : ℕ}
    (hj : j < pts.length) (hpos : Signed (triangleMeasure prev avg pts[j]) .positive)
    (hzero : ∀ i (hi : i < pts.length), i ≠ j →
      (triangleMeasure prev avg pts[i]).toModel.unpack = .zero .positive) :
    argmaxArea prev avg pts = j := by
  have h := scanInv_argmaxArea prev avg pts
  have hjn := hpos.isNaN_eq_false
  rcases h.best with ⟨hlt, heq, -⟩ | ⟨-, -, hnan⟩
  · by_contra hne
    have hlow := zero_lt_signed (hzero _ hlt hne) hpos
    rw [heq] at hlow
    exact h.not_exceeded _ (List.getElem_mem hj) hjn hlow
  · rw [hnan _ (List.getElem_mem hj)] at hjn
    cases hjn

/-! ## The pick in the spike's bucket -/

section Pick

variable {n k lo hi : ℕ} {v : Float}

theorem getElem_bucket_spike {i : ℕ} (hn : hi ≤ n)
    (hil : i < (Series.bucket (positions n) (spike n k v) lo hi).length) :
    (Series.bucket (positions n) (spike n k v) lo hi)[i] =
      ⟨Float.ofNat (lo + i), if lo + i = k then v else 0⟩ := by
  rw [length_bucket] at hil
  simp only [Series.bucket, List.getElem_map, List.getElem_range', Nat.one_mul]
  exact pointAt_spike (by omega)

/-- In the bucket `[lo, hi)` holding the spike, against a flat frame, the pick is the spike. -/
theorem pick_spike {prev avg : Point} {a : ℕ} {A : ℚ} {s : Sign} {m : ℕ} {e : ℤ} {hm : 0 < m}
    (hv : v.toModel.unpack = .finite s m e hm) (hlo : lo ≤ k) (hk : k < hi) (hn : hi ≤ n)
    (h53 : n ≤ 2 ^ 53) (hf : FlatFrame prev avg a A) :
    lo + argmaxArea prev avg (Series.bucket (positions n) (spike n k v) lo hi) = k := by
  have hj : k - lo < (Series.bucket (positions n) (spike n k v) lo hi).length := by
    rw [length_bucket]
    omega
  rw [argmaxArea_eq_of_signed hj ?spike ?flat]
  · omega
  case spike =>
    have hy : (if lo + (k - lo) = k then v else 0).toModel.unpack = .finite s m e hm := by
      rw [if_pos (by omega)]
      exact hv
    rw [getElem_bucket_spike hn hj]
    exact hf.measure_signed (natValue_ofNat (by omega)) hy
  case flat =>
    intro i hil hne
    rw [getElem_bucket_spike hn hil]
    rw [length_bucket] at hil
    refine hf.measure_flat ⟨natValue_ofNat (by omega), ?_⟩
    show (if lo + i = k then v else 0).toModel.unpack = _
    rw [if_neg (by omega)]
    exact ofNat_zero_unpack

end Pick

/-! ## Centroids on the zero line -/

/-- Summing points of the zero line at the abscissas `is` onto a sum on the zero line at `S`
stays on the zero line, at `S` plus their sum, while that sum is exact. -/
theorem OnZeroLine.foldl_sum (is : List ℕ) {sum : Point} {S : ℕ} (h : OnZeroLine sum S)
    (h53 : S + is.sum < 2 ^ 53) :
    OnZeroLine ((is.map fun i => (⟨Float.ofNat i, 0⟩ : Point)).foldl
      (fun (s : Point) p => ⟨s.x + p.x, s.y + p.y⟩) sum) (S + is.sum) := by
  induction is generalizing sum S with
  | nil => simpa using h
  | cons i is ih =>
    rw [List.sum_cons] at h53
    have hstep : OnZeroLine ⟨sum.x + Float.ofNat i, sum.y + 0⟩ (S + i) := by
      refine ⟨h.x.add (natValue_ofNat (by omega)) (by omega), ?_⟩
      rw [add_zero_eq zero_unpack (zeroNeutral_of_zero h.y)]
      exact h.y
    rw [List.map_cons, List.foldl_cons, List.sum_cons, ← Nat.add_assoc]
    exact ih hstep (by omega)

/-- The centroid of a bucket `[lo, hi)` of the zero line, `1 ≤ lo`, whose width times `n` stays
below `2^53`, lies on the zero line, with an abscissa between `lo - 1` and `hi`: the positions
sum exactly, the mean lies between `lo` and `hi - 1`, and one rounding moves it by less than
one. -/
theorem centroid_flat {n k lo hi : ℕ} {v : Float} (h1 : 1 ≤ lo) (hlo : lo < hi) (hn : hi ≤ n)
    (hsum : (hi - lo) * n < 2 ^ 53) (hk : k < lo ∨ hi ≤ k) :
    ∃ A, PosValue (centroid (Series.bucket (positions n) (spike n k v) lo hi)).x A ∧
      (centroid (Series.bucket (positions n) (spike n k v) lo hi)).y.toModel.unpack =
        .zero .positive ∧ (lo : ℚ) - 1 ≤ A ∧ A ≤ hi := by
  have hb : Series.bucket (positions n) (spike n k v) lo hi =
      (List.range' lo (hi - lo)).map fun i => (⟨Float.ofNat i, 0⟩ : Point) := by
    refine List.map_congr_left fun i hi' => ?_
    rw [List.mem_range'_1] at hi'
    rw [pointAt_spike (by omega), if_neg (by omega)]
  -- the abscissas sum exactly, to between `c * lo` and `c * (hi - 1)` for `c` points
  set c := hi - lo with hc
  set T := (List.range' lo c).sum
  have hTlo : c * lo ≤ T := by
    have h := List.card_nsmul_le_sum (List.range' lo c) lo
      (fun i hi' => (List.mem_range'_1.mp hi').1)
    rwa [List.length_range', smul_eq_mul] at h
  have hThi : T ≤ c * (hi - 1) := by
    have h := List.sum_le_card_nsmul (List.range' lo c) (hi - 1)
      (fun i hi' => by rw [List.mem_range'_1] at hi'; omega)
    rwa [List.length_range', smul_eq_mul] at h
  have hc53 : c * (hi - 1) < 2 ^ 53 := lt_of_le_of_lt (Nat.mul_le_mul_left c (by omega)) hsum
  have hhi53 : hi ≤ 2 ^ 53 := by
    have := lt_of_le_of_lt (Nat.le_mul_of_pos_left n (show 0 < c by omega)) hsum
    omega
  have hsum := OnZeroLine.foldl_sum (List.range' lo c)
    (⟨natValue_ofNat (by norm_num), zero_unpack⟩ : OnZeroLine ⟨0, 0⟩ 0) (by omega)
  rw [Nat.zero_add] at hsum
  have hcount : PosValue (Float.ofNat c) c := posValue_ofNat (by omega) (by omega)
  have hc0 : (0 : ℚ) < c := by exact_mod_cast (show 0 < c by omega)
  have hq1 : (lo : ℚ) ≤ T / c := by
    rw [le_div_iff₀ hc0]
    exact_mod_cast (show lo * c ≤ T by rw [Nat.mul_comm]; exact hTlo)
  have hq2 : (T : ℚ) / c ≤ hi - 1 := by
    rw [div_le_iff₀ hc0]
    have : ((c * (hi - 1) : ℕ) : ℚ) = c * ((hi : ℚ) - 1) := by push_cast [Nat.cast_sub (by omega : 1 ≤ hi)]; ring
    rw [mul_comm, ← this]
    exact_mod_cast hThi
  have hhi53' : (hi : ℚ) ≤ 2 ^ 53 := by exact_mod_cast hhi53
  have hq53 : (T : ℚ) / c ≤ 2 ^ 53 := by linarith
  obtain ⟨A, hA, hAe⟩ := exists_roundsTo_of_half_le (by linarith [(show (1 : ℚ) ≤ lo by exact_mod_cast h1)])
    (hq53.trans (pow_le_pow_right₀ (by norm_num) (by norm_num)))
  have herr : (T : ℚ) / c / 2 ^ 53 ≤ 1 := by
    rw [div_le_one (by norm_num)]
    exact hq53
  have hAe' := abs_le.mp hAe
  rw [hb]
  refine ⟨A, ?_, ?_, by linarith, by linarith⟩
  · simp only [centroid, List.length_map, List.length_range']
    exact (hsum.x.posValue (lt_of_lt_of_le (Nat.mul_pos (by omega) h1) hTlo)).div hcount hA
  · simp only [centroid, List.length_map, List.length_range']
    exact zero_div_posValue hsum.y hcount

/-! ## The picks -/

section Picks

variable {n k : ℕ} {v : Float}

theorem onZeroLine_pointAt {i : ℕ} (hi : i < n) (hik : i ≠ k) (h53 : n ≤ 2 ^ 53) :
    OnZeroLine (Series.pointAt (positions n) (spike n k v) i) i := by
  rw [pointAt_spike hi]
  refine ⟨natValue_ofNat (by omega), ?_⟩
  show (if i = k then v else 0).toModel.unpack = _
  rw [if_neg hik]
  exact zero_unpack

/-- Along rising boundaries below `n`, each bucket narrow enough that its positions sum
exactly, with the previous pick left of the first boundary and the spike between the first and
the last, the spike is picked: the centroid of the bucket after the spike's, or the last point,
lies on the zero line to the right of every earlier pick. -/
theorem mem_pickBuckets_spike {s : Sign} {m : ℕ} {e : ℤ} {hm : 0 < m}
    (hv : v.toModel.unpack = .finite s m e hm) (h53 : n ≤ 2 ^ 53) {prev : ℕ} {B : List ℕ}
    (hB : B.IsChain (· < ·)) (hsum : B.IsChain fun a b => (b - a) * n < 2 ^ 53)
    (hbound : ∀ b ∈ B, 1 ≤ b ∧ b < n) (hprev : prev < B.headD 0)
    (hk1 : B.headD 0 ≤ k) (hk2 : k < B.getLastD 0) :
    k ∈ pickBuckets (positions n) (spike n k v)
      (Series.pointAt (positions n) (spike n k v) (n - 1)) prev B := by
  fun_induction pickBuckets (positions n) (spike n k v)
    (Series.pointAt (positions n) (spike n k v) (n - 1)) prev B with
  | case1 prev lo mid hi rest avg a ih =>
    rw [List.isChain_cons_cons] at hB hsum
    simp only [List.headD_cons, List.getLastD_cons] at hprev hk1 hk2
    have hlo := hbound lo (by simp)
    have hmid := hbound mid (by simp)
    have hhi := hbound hi (by simp)
    have hmh : mid < hi := (List.isChain_cons_cons.mp hB.2).1
    by_cases hkm : k < mid
    · -- the spike is in this bucket, and the next bucket's centroid lies right of it
      obtain ⟨A, hA, hAy, hA1, hA2⟩ :=
        centroid_flat (v := v) hmid.1 hmh hhi.2.le (List.isChain_cons_cons.mp hsum.2).1 (.inl hkm)
      have hf : FlatFrame (Series.pointAt (positions n) (spike n k v) prev) avg prev A := by
        refine ⟨onZeroLine_pointAt (by omega) (by omega) h53, hA, hAy, ?_, ?_⟩
        · have : (prev : ℚ) + 2 ≤ mid := by exact_mod_cast (show prev + 2 ≤ mid by omega)
          linarith
        · have : (hi : ℚ) ≤ 2 ^ 53 := by exact_mod_cast (show hi ≤ 2 ^ 53 by omega)
          exact hA2.trans (this.trans (pow_le_pow_right₀ (by norm_num) (by norm_num)))
      have hak : a = k := pick_spike hv hk1 hkm hmid.2.le h53 hf
      rw [hak]
      exact List.mem_cons_self
    · -- the spike lies further on, and this pick is left of the next boundary
      have hne : Series.bucket (positions n) (spike n k v) lo mid ≠ [] := by
        rw [← List.length_pos_iff, length_bucket]
        exact Nat.sub_pos_of_lt hB.1
      have hwin := argmaxArea_lt_length (Series.pointAt (positions n) (spike n k v) prev) avg hne
      rw [length_bucket] at hwin
      refine List.mem_cons_of_mem a (ih hB.2 hsum.2 (fun b hb => hbound b (by simp_all)) ?_ ?_ ?_)
      · show a < mid
        omega
      · simp only [List.headD_cons]
        omega
      · simpa only [List.getLastD_cons] using hk2
  | case2 prev lo hi =>
    simp only [List.headD_cons, List.getLastD_cons, List.getLastD_nil] at hprev hk1 hk2
    have hhi := hbound hi (by simp)
    -- the last point stands in for the centroid
    have hf : FlatFrame (Series.pointAt (positions n) (spike n k v) prev)
        (Series.pointAt (positions n) (spike n k v) (n - 1)) prev ((n - 1 : ℕ) : ℚ) := by
      have hlast := onZeroLine_pointAt (v := v) (show n - 1 < n by omega) (show n - 1 ≠ k by omega) h53
      refine ⟨onZeroLine_pointAt (by omega) (by omega) h53,
        hlast.x.posValue (by omega), hlast.y, by exact_mod_cast (show prev + 1 ≤ n - 1 by omega), ?_⟩
      have : ((n - 1 : ℕ) : ℚ) ≤ 2 ^ 53 := by exact_mod_cast (show n - 1 ≤ 2 ^ 53 by omega)
      exact this.trans (pow_le_pow_right₀ (by norm_num) (by norm_num))
    rw [pick_spike hv hk1 hk2 hhi.2.le h53 hf]
    exact List.mem_singleton_self k
  | case3 B prev hB3 hB2 =>
    -- fewer than two boundaries leave no room between the first and the last
    exfalso
    rcases B with _ | ⟨lo, _ | ⟨mid, _ | ⟨hi, rest⟩⟩⟩
    · simp at hk2
    · simp only [List.headD_cons, List.getLastD_cons, List.getLastD_nil] at hk1 hk2
      omega
    · exact hB2 lo mid rfl
    · exact hB3 lo mid hi rest rfl

end Picks

/-! ## The spike is kept -/

/-- Where `n * n ≤ 2^51 * (nOut - 2)` every bucket is narrow enough that its positions sum
exactly: its width times `n` stays below `2^53`. -/
theorem boundaryNats_isChain_bucketSum {n nOut : ℕ} (hout : 3 ≤ nOut) (hle : nOut ≤ n)
    (hn : n * nOut ≤ 2 ^ 50) (hbucket : n * n ≤ 2 ^ 51 * (nOut - 2)) :
    (boundaryNats n nOut).IsChain fun a b => (b - a) * n < 2 ^ 53 := by
  refine (boundaryNats_isChain_width hout hle hn).imp fun a b hw => ?_
  -- the width is below `3 n / (nOut - 2)`, and `3 n * n` below `2^53 * (nOut - 2)`
  have h : (b - a) * n * (nOut - 2) < 2 ^ 53 * (nOut - 2) :=
    calc (b - a) * n * (nOut - 2) = (b - a) * (nOut - 2) * n := Nat.mul_right_comm _ _ _
      _ < (n - 2 + 2 * (nOut - 2)) * n := Nat.mul_lt_mul_of_pos_right hw (by omega)
      _ ≤ 3 * n * n := Nat.mul_le_mul_right n (by omega)
      _ = 3 * (n * n) := Nat.mul_assoc 3 n n
      _ ≤ 3 * (2 ^ 51 * (nOut - 2)) := Nat.mul_le_mul_left 3 hbucket
      _ < 2 ^ 53 * (nOut - 2) := by omega
  exact Nat.lt_of_mul_lt_mul_right h

theorem getD_length_sub_one (l : List ℕ) : l.getD (l.length - 1) 0 = l.getLastD 0 := by
  rw [List.getD_eq_getElem?_getD, ← List.getLast?_eq_getElem?, ← List.getLastD_eq_getLast?]

/-- While `n * nOut ≤ 2^50` and the buckets sum exactly, LTTB keeps a lone spike of any finite
nonzero value, unless the spike sits at the point before the last and the last boundary stops
there, so that no bucket holds it. -/
theorem lttb_keeps_spike_iff {n nOut k : ℕ} {v : Float} (hout : 3 ≤ nOut) (hle : nOut ≤ n)
    (hn : n * nOut ≤ 2 ^ 50) (hbucket : n * n ≤ 2 ^ 51 * (nOut - 2)) (hk : k < n) (hv : v.isFinite = true) (hv0 : (v == 0) = false) :
    ∃ s off, lttb (positions n) (spike n k v) nOut = .ok s ∧ offsets n nOut = some off ∧
      (k ∈ s ↔ k + 2 ≠ n ∨ off.getLast? = some ((n : ℤ) - 1)) := by
  obtain ⟨sg, m, e, hm, hvu⟩ := exists_finite_of_isFinite hv hv0
  have hchain := boundaryNats_isChain hout hle hn
  have hhead := headD_boundaryNats hout hle hn
  have hlastB := getLastD_boundaryNats (n := n) hout
  have hlast := boundary_last (N := n - 2) (m := nOut - 2) (by omega) (by omega)
    (size_bound_sub_two hout hle hn)
  have hL : (boundaryNats n nOut).getLastD 0 = n - 2 ∨
      (boundaryNats n nOut).getLastD 0 = n - 1 := by
    omega
  have hlastZ : boundary (n - 2) (nOut - 2) (nOut - 2) = (n : ℤ) - 1 ↔
      (boundaryNats n nOut).getLastD 0 = n - 1 := by
    omega
  refine ⟨_, _, lttb_eq_ok hout hle hn (size_positions n) (size_spike n k v),
    offsets_eq_map (by omega) hout, ?_⟩
  rw [boundaries_getLast? hout, Option.some_inj, hlastZ]
  simp only [List.mem_cons, List.mem_append, List.not_mem_nil, or_false]
  constructor
  · -- an interior pick lies below the last boundary
    rintro ((rfl | hkt) | rfl)
    · exact .inl (by omega)
    · have hlen : 2 ≤ (boundaryNats n nOut).length := by
        simp only [boundaryNats, List.length_map, List.length_range]
        omega
      have hin := pickBuckets_inBuckets (positions n) (spike n k v)
        (Series.pointAt (positions n) (spike n k v) (n - 1)) 0 hchain hlen
      have := (hin.mem_bounds hchain.pairwise hkt).2
      rw [getD_length_sub_one] at this
      omega
    · exact .inl (by omega)
  · -- a spike strictly inside lies in a bucket, and is picked there
    intro h
    by_cases hk0 : k = 0
    · exact .inl (.inl hk0)
    by_cases hkn : k = n - 1
    · exact .inr hkn
    have h53 : n ≤ 2 ^ 53 := (le_of_size_bound hout hle hn).trans (by norm_num)
    refine .inl (.inr (mem_pickBuckets_spike hvu h53 hchain
      (boundaryNats_isChain_bucketSum hout hle hn hbucket) (fun b hb => ?_) (by omega) (by omega)
      (by omega)))
    have := mem_boundaryNats hout hle hn hb
    omega

/-- Seventeen points, thirteen outputs, a spike of `1` at position `15`, the point before the
last. -/
theorem lttb_keeps_spike_iff_seventeen :
    (3 ≤ 13 ∧ 13 ≤ 17 ∧ 17 * 13 ≤ 2 ^ 50 ∧ 17 * 17 ≤ 2 ^ 51 * (13 - 2) ∧ 15 < 17 ∧
      (1 : Float).isFinite = true ∧ ((1 : Float) == 0) = false) ∧
    ∃ s off, lttb (positions 17) (spike 17 15 1) (13 : ℕ) = .ok s ∧
      offsets (17 : ℕ) (13 : ℕ) = some off ∧
      (15 ∈ s ↔ 15 + 2 ≠ 17 ∨ off.getLast? = some (((17 : ℕ) : ℤ) - 1)) :=
  ⟨⟨by norm_num, by norm_num, by norm_num, by norm_num, by norm_num, by rfl, by rfl⟩,
    lttb_keeps_spike_iff (by norm_num) (by norm_num) (by norm_num) (by norm_num) (by norm_num)
      (by rfl) (by rfl)⟩

/-- The run the exception is about: with seventeen points and thirteen outputs the last boundary
is `15`, so no bucket holds the spike at `15`, and LTTB drops it. -/
theorem lttb_drops_spike_seventeen :
    offsets 17 13 = some [1, 2, 3, 5, 6, 7, 9, 10, 11, 13, 14, 15] ∧
      lttb (positions 17) (spike 17 15 1) 13 =
        .ok [0, 1, 2, 3, 5, 6, 7, 9, 10, 11, 13, 14, 16] := by
  decide +kernel

end Decimation
