import Mathlib
import Decimation.Proofs.Offsets
/-!
# LTTB at full width

Asked for as many points as a series has, LTTB keeps every point, whatever the values, up to
`2^53` points (`lttb_self_eq_range`). The width `(n - 2) / (n - 2)` is exactly one, and below
`2^53` the products `i * 1` and the sums `1 + i` are exact, so boundary `i` is `i + 1`
(`boundary_self`) and every bucket holds one point. The scan of a bucket of one point returns
that point, whatever its measure (`argmaxArea_unit_bucket`), so each bucket keeps its point
(`pickBuckets_unit_buckets`).
-/

namespace Decimation

section Boundaries

variable {n : ℕ}

/-- At full width boundary `i` is `i + 1`. -/
theorem boundary_full {i : ℕ} (h3 : 3 ≤ n) (h53 : n ≤ 2 ^ 53) (hi : i ≤ n - 2) :
    boundary (n - 2) (n - 2) i = i + 1 :=
  boundary_self (by omega) hi (by omega)

theorem boundaryNats_self (h3 : 3 ≤ n) (h53 : n ≤ 2 ^ 53) :
    boundaryNats n n = List.range' 1 (n - 1) := by
  rw [boundaryNats, List.range'_eq_map_range]
  refine List.map_congr_left fun i hi => ?_
  rw [List.mem_range] at hi
  rw [boundary_full h3 h53 (by omega)]
  omega

/-- At full width the boundaries `1, 2, …, n - 1` pass the check. -/
theorem checkedOffsets_self (h3 : 3 ≤ n) (h53 : n ≤ 2 ^ 53) :
    checkedOffsets n n = .ok (List.range' 1 (n - 1)) := by
  have hrise : ((List.range (n - 1)).map (boundary (n - 2) (n - 2))).IsChain (· < ·) := by
    rw [List.isChain_map, show n - 1 = n - 2 + 1 by omega, List.isChain_range_succ]
    intro i hi
    rw [boundary_full h3 h53 (by omega), boundary_full h3 h53 (by omega)]
    omega
  have hend : boundary (n - 2) (n - 2) (n - 2) ≤ (n : ℤ) - 1 := by
    rw [boundary_full h3 h53 le_rfl]
    omega
  rw [checkedOffsets_eq_ok_of_rising h3 h3 hrise hend, boundaryNats_self h3 h53]

end Boundaries

/-! ## Buckets of one point -/

section Picks

variable (xs ys : Array Float) (last : Point)

/-- A bucket of one point yields that point, whatever its measure. -/
theorem argmaxArea_unit_bucket (prev avg : Point) (lo : ℕ) :
    argmaxArea prev avg (Series.bucket xs ys lo (lo + 1)) = 0 := by
  have hne : Series.bucket xs ys lo (lo + 1) ≠ [] := by
    rw [← List.length_pos_iff, length_bucket]
    omega
  have h := argmaxArea_lt_length prev avg hne
  rw [length_bucket] at h
  omega

/-- Over boundaries that step by one every bucket holds one point, and each is kept. -/
theorem pickBuckets_unit_buckets {B : List ℕ} (hB : B.IsChain (fun a b => b = a + 1))
    (prev : ℕ) : pickBuckets xs ys last prev B = B.dropLast := by
  fun_induction pickBuckets xs ys last prev B with
  | case1 prev lo mid hi rest avg a ih =>
    rw [List.isChain_cons_cons] at hB
    obtain ⟨rfl, hB⟩ := hB
    have ha : a = lo := by simp only [a, argmaxArea_unit_bucket, Nat.add_zero]
    rw [ih hB, ha]
    rfl
  | case2 prev lo hi =>
    rw [List.isChain_cons_cons] at hB
    obtain ⟨rfl, -⟩ := hB
    simp only [argmaxArea_unit_bucket, Nat.add_zero]
    rfl
  | case3 B prev h3 h2 =>
    -- fewer than two boundaries make no bucket
    rcases B with _ | ⟨lo, _ | ⟨mid, _ | ⟨hi, rest⟩⟩⟩
    · rfl
    · rfl
    · exact absurd rfl (h2 lo mid)
    · exact absurd rfl (h3 lo mid hi rest)

end Picks

/-- Asked for as many points as the series has, between `3` and `2^53`, LTTB keeps every index,
whatever the values, NaN and the infinities included. -/
theorem lttb_self_eq_range {n : ℕ} (h3 : 3 ≤ n) (h53 : n ≤ 2 ^ 53) {xs ys : Array Float}
    (hx : xs.size = n) (hy : ys.size = n) : lttb xs ys n = .ok (List.range n) := by
  rw [lttb_eq_of_checkedOffsets h3 le_rfl hx hy (checkedOffsets_self h3 h53),
    pickBuckets_unit_buckets _ _ _ (List.isChain_range' 1 (n - 1) 1)]
  -- `0`, then `1, …, n - 2`, then `n - 1`
  obtain ⟨k, rfl⟩ : ∃ k, n = k + 2 := ⟨n - 2, by omega⟩
  rw [show k + 2 - 1 = k + 1 by omega, List.range'_concat, List.dropLast_concat,
    List.range_succ, List.range_eq_range', List.range'_succ]

/-- Five points, with a NaN and both infinities among the values, kept whole. -/
theorem lttb_self_eq_range_five :
    (3 ≤ 5 ∧ 5 ≤ 2 ^ 53 ∧ (#[0, 1, 2, 3, 4] : Array Float).size = 5 ∧
        (#[1, 0 / 0, 1 / 0, -1 / 0, 0] : Array Float).size = 5) ∧
      lttb #[0, 1, 2, 3, 4] #[1, 0 / 0, 1 / 0, -1 / 0, 0] (5 : ℕ) = .ok (List.range 5) :=
  ⟨⟨by norm_num, by norm_num, rfl, rfl⟩, lttb_self_eq_range (by norm_num) (by norm_num) rfl rfl⟩

end Decimation
