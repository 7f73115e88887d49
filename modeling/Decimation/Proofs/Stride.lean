import Mathlib
import Decimation.Proofs.Downsampling
/-!
# The stride of Nth

Nth keeps every `s`-th point from the first, where the stride `s` is documented as
`max 1 ⌈n / nOut⌉`. It is computed as `(n + nOut - 1) / nOut` in 64-bit arithmetic, so the
documented value holds only while the sum `n + nOut - 1` stays below `2^63` (`stride_eq`). Past
that the sum wraps to a negative number, its quotient truncates to at most zero, and the stride
falls back to one (`stride_of_wrap`): `2^63 - 1` points to two output points take every point,
not every `2^62`-th.

The main statement, `nth_eq_multiples_of_stride`, says what Nth keeps of every pair of series of
one length `n`: exactly the multiples of the stride below `n`, increasing, `⌈n / s⌉` of them,
the last point among them exactly when the stride divides `n - 1`, and no more than `nOut` of
them exactly when the stride did not wrap or `n ≤ nOut`.
-/

namespace Decimation

/-! ## The stride -/

/-- When `n + nOut - 1` wraps past the largest 64-bit integer, the wrapped sum is negative, its
quotient by `nOut` is at most zero, and the stride falls back to one. -/
theorem stride_of_wrap {n w : ℕ} (hn63 : n < 2 ^ 63) (hw : 1 ≤ w) (hw63 : w < 2 ^ 63)
    (hwrap : 2 ^ 63 < n + w) :
    stride (Int64.ofNat n) (Int64.ofInt w) = .ok 1 := by
  have hw64 : (Int64.ofInt w).toInt = w := Int64.toInt_ofInt_of_le (by omega) (by omega)
  have hn64 : (Int64.ofNat n).toInt = n := Int64.toInt_ofNat_of_lt hn63
  -- the sum wraps once, to `n + w - 1 - 2^64`
  have hsum : (Int64.ofNat n + Int64.ofInt w - 1).toInt = (n : Int) + w - 1 - 2 ^ 64 := by
    have h1 : (1 : Int64).toInt = 1 := rfl
    rw [Int64.toInt_sub, Int64.toInt_add, hn64, hw64, h1, Int.bmod_sub_bmod, Int.bmod_def]
    split <;> omega
  have h0 : (0 : Int64).toInt = 0 := rfl
  have hm1 : (-1 : Int64).toInt = -1 := rfl
  have hne : Int64.ofInt w ≠ 0 := fun he => by
    have := congrArg Int64.toInt he
    omega
  have hne1 : Int64.ofInt w ≠ -1 := fun he => by
    have := congrArg Int64.toInt he
    omega
  -- a negative sum divided by a positive count truncates to a quotient of at most zero
  have hq : (Int64.ofNat n + Int64.ofInt w - 1) / Int64.ofInt w < 1 := by
    rw [Int64.lt_iff_toInt_lt, Int64.toInt_div_of_ne_right _ _ hne1, hsum, hw64,
      show (1 : Int64).toInt = 1 from rfl,
      show (n : Int) + w - 1 - 2 ^ 64 = -((2 ^ 64 + 1 : Int) - n - w) by ring, Int.neg_tdiv]
    have : 0 ≤ ((2 ^ 64 + 1 : Int) - n - w).tdiv w := Int.tdiv_nonneg (by omega) (by omega)
    omega
  unfold stride quotient64
  rw [if_neg hne]
  simp only [bind, Except.bind, pure, Except.pure, if_pos hq]

theorem one_le_ceilDiv {n w : ℕ} (hn : 1 ≤ n) (hw : 1 ≤ w) : 1 ≤ n ⌈/⌉ w := by
  rw [Nat.ceilDiv_eq_add_pred_div]
  exact (Nat.le_div_iff_mul_le (by omega)).mpr (by omega)

/-- The stride of `n` points and `nOut` output points is the documented `max 1 ⌈n / nOut⌉` when
`n + nOut - 1` fits a 64-bit integer, and one when the sum wraps. -/
theorem stride_eq {n w : ℕ} (hn : 1 ≤ n) (hn63 : n < 2 ^ 63) (hw : 1 ≤ w) (hw63 : w < 2 ^ 63) :
    stride (Int64.ofNat n) (Int64.ofInt w) =
      .ok (Int64.ofNat (if n + w ≤ 2 ^ 63 then max 1 (n ⌈/⌉ w) else 1)) := by
  have h63 : Nat.pow 2 63 = 2 ^ 63 := Nat.pow_eq
  split
  · rw [stride_ofNat (by omega) (by omega) (by omega), max_eq_right (one_le_ceilDiv hn hw),
      Nat.ceilDiv_eq_add_pred_div, Int64.ofInt_eq_ofNat]
  · exact stride_of_wrap hn63 hw hw63 (by omega)

example : stride (Int64.ofNat (2 ^ 63 - 1)) (Int64.ofInt 2) = .ok 1 := by decide

/-- The stride is at most the number of points. -/
theorem strideOf_le {n w : ℕ} (hn : 1 ≤ n) (hw : 1 ≤ w) :
    (if n + w ≤ 2 ^ 63 then max 1 (n ⌈/⌉ w) else 1) ≤ n := by
  split
  · rw [Nat.ceilDiv_eq_add_pred_div]
    have : n ≤ w * n := Nat.le_mul_of_pos_left n hw
    exact max_le hn ((Nat.div_le_iff_le_mul_add_pred (by omega)).mpr (by omega))
  · exact hn

/-! ## The multiples below `n` -/

theorem mem_multiplesBelow {n s i : ℕ} (hs : 0 < s) :
    i ∈ multiplesBelow n s ↔ i < n ∧ s ∣ i := by
  rw [multiplesBelow, List.mem_range']
  -- `j < ⌈n / s⌉` says that `(j + 1) * s ≤ n + s - 1`, that is `j * s < n`
  have hstep : ∀ j, j < (n + s - 1) / s ↔ s * j < n := fun j => by
    rw [← Nat.succ_le_iff, Nat.le_div_iff_mul_le hs, Nat.succ_mul, Nat.mul_comm]
    omega
  constructor
  · rintro ⟨j, hj, rfl⟩
    exact ⟨by simpa using (hstep j).mp hj, j, by simp⟩
  · rintro ⟨hi, j, rfl⟩
    exact ⟨j, (hstep j).mpr hi, by simp⟩

theorem getLast?_multiplesBelow {n s : ℕ} (hs : 0 < s) (hn : 0 < n) :
    (multiplesBelow n s).getLast? = some ((n - 1) / s * s) := by
  -- there are `(n - 1) / s + 1` multiples, the last of them `(n - 1) / s * s`
  have hk : (n + s - 1) / s = (n - 1) / s + 1 := by
    rw [show n + s - 1 = n - 1 + s * 1 by omega, Nat.add_mul_div_left _ _ hs]
  rw [multiplesBelow, hk, List.range'_concat, List.getLast?_concat, zero_add, Nat.mul_comm]

/-- The last point is kept exactly when the stride divides its index. -/
theorem getLast?_multiplesBelow_eq_iff {n s : ℕ} (hs : 0 < s) (hn : 0 < n) :
    (multiplesBelow n s).getLast? = some (n - 1) ↔ s ∣ n - 1 := by
  rw [getLast?_multiplesBelow hs hn, Option.some.injEq]
  exact ⟨fun h => Dvd.intro_left _ h, Nat.div_mul_cancel⟩

/-! ## What Nth keeps -/

/-- Nth on `n` points keeps the multiples of its stride below `n`. -/
theorem nth_eq_multiplesBelow {xs ys : Array Float} {w : ℕ} (hlen : xs.size = ys.size)
    (hn : 1 ≤ xs.size) (hn63 : xs.size < 2 ^ 63) (hw : 1 ≤ w) (hw63 : w < 2 ^ 63) :
    nth xs ys w = .ok (multiplesBelow xs.size
      (if xs.size + w ≤ 2 ^ 63 then max 1 (xs.size ⌈/⌉ w) else 1)) := by
  have hs := strideOf_le hn hw
  rw [nth]
  simp only [↓ite_throw_bind]
  rw [if_neg (by omega), if_neg (by omega), if_neg (by omega), stride_eq hn hn63 hw hw63]
  simp only [pure, Except.pure]
  rw [Int64.toInt_ofNat_of_lt (by omega), Int.toNat_natCast]

/-- Nth keeps at most `nOut` points exactly when the stride did not wrap or there are no more
points than that. -/
theorem length_nth_le_iff {n w : ℕ} (hn : 1 ≤ n) (hw : 1 ≤ w) :
    (multiplesBelow n (if n + w ≤ 2 ^ 63 then max 1 (n ⌈/⌉ w) else 1)).length ≤ w ↔
      n + w ≤ 2 ^ 63 ∨ n ≤ w := by
  split
  · rename_i hfit
    rw [max_eq_right (one_le_ceilDiv hn hw), Nat.ceilDiv_eq_add_pred_div]
    exact ⟨fun _ => .inl hfit, fun _ => length_multiplesBelow_le n w hw⟩
  · -- a wrapped stride of one keeps every point
    rw [length_multiplesBelow, Nat.add_sub_cancel, Nat.div_one]
    omega

/-- Nth on `n` points and `nOut` output points, `1 ≤ n, nOut < 2^63`, keeps exactly the multiples
`0, s, 2s, …` of its stride `s` that lie below `n`, in increasing order: `⌈n / s⌉` of them, the
last one `n - 1` exactly when `s` divides `n - 1`. The stride is the documented
`max 1 ⌈n / nOut⌉` only while `n + nOut - 1` does not wrap past `2^63 - 1`; past that it is one,
and then Nth keeps more than `nOut` points whenever `n > nOut`. -/
theorem nth_eq_multiples_of_stride {xs ys : Array Float} {w : ℕ} (hlen : xs.size = ys.size)
    (hn : 1 ≤ xs.size) (hn63 : xs.size < 2 ^ 63) (hw : 1 ≤ w) (hw63 : w < 2 ^ 63) :
    ∃ s, s = (if xs.size + w ≤ 2 ^ 63 then max 1 (xs.size ⌈/⌉ w) else 1) ∧
      stride (Int64.ofNat xs.size) (Int64.ofInt w) = .ok (Int64.ofNat s) ∧
      ∃ idx, nth xs ys w = .ok idx ∧ (∀ i, i ∈ idx ↔ i < xs.size ∧ s ∣ i) ∧
        idx.Pairwise (· < ·) ∧ idx.length = xs.size ⌈/⌉ s ∧
        (idx.length ≤ w ↔ xs.size + w ≤ 2 ^ 63 ∨ xs.size ≤ w) ∧
        (idx.getLast? = some (xs.size - 1) ↔ s ∣ xs.size - 1) := by
  have hpos : 0 < (if xs.size + w ≤ 2 ^ 63 then max 1 (xs.size ⌈/⌉ w) else 1) := by
    split
    · exact lt_max_of_lt_left Nat.one_pos
    · exact Nat.one_pos
  refine ⟨_, rfl, stride_eq hn hn63 hw hw63, _, nth_eq_multiplesBelow hlen hn hn63 hw hw63,
    fun i => mem_multiplesBelow hpos, pairwise_multiplesBelow _ hpos, length_multiplesBelow _ _,
    length_nth_le_iff hn hw, getLast?_multiplesBelow_eq_iff hpos hn⟩

/-- Ten points to three: the stride is `⌈10 / 3⌉ = 4` and Nth keeps `0, 4, 8`, without the last
point, since `4` does not divide `9`. -/
theorem nth_eq_multiples_of_stride_ten :
    let xs : Array Float := Array.replicate 10 0
    xs.size = xs.size ∧ 1 ≤ xs.size ∧ xs.size < 2 ^ 63 ∧ 1 ≤ 3 ∧ 3 < 2 ^ 63 ∧
    ∃ s, s = (if xs.size + 3 ≤ 2 ^ 63 then max 1 (xs.size ⌈/⌉ 3) else 1) ∧
      stride (Int64.ofNat xs.size) (Int64.ofInt 3) = .ok (Int64.ofNat s) ∧
      ∃ idx, nth xs xs 3 = .ok idx ∧ (∀ i, i ∈ idx ↔ i < xs.size ∧ s ∣ i) ∧
        idx.Pairwise (· < ·) ∧ idx.length = xs.size ⌈/⌉ s ∧
        (idx.length ≤ 3 ↔ xs.size + 3 ≤ 2 ^ 63 ∨ xs.size ≤ 3) ∧
        (idx.getLast? = some (xs.size - 1) ↔ s ∣ xs.size - 1) :=
  ⟨rfl, by decide, by decide, by decide, by decide,
    nth_eq_multiples_of_stride rfl (by decide) (by decide) (by decide) (by decide)⟩

example : nth (Array.replicate 10 0) (Array.replicate 10 0) 3 = .ok [0, 4, 8] := by decide

end Decimation
