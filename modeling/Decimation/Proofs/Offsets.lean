import Mathlib
import Decimation.Proofs.FloatArith
import Decimation.Proofs.Lttb
/-!
# Bucket boundaries while `n * nOut ≤ 2^50`

`offsets n nOut` computes boundary `i` as the integer part of `1 + i * q`, where `q` is the
binary64 quotient `(n - 2) / (nOut - 2)`, and every step rounds. For `N = n - 2` the three
roundings move a boundary at most `(3 N + 4) 2^-53` from `1 + i * N / (nOut - 2)`
(`boundary_near_quotient`), while consecutive exact boundaries differ by at least
`1 + 1 / (nOut - 2)`. While `n * nOut ≤ 2^50` twice that error, over `nOut - 2` buckets, stays
below one (`boundary_error_mul`). So the boundaries start at `1`, rise strictly and end at
`n - 2` or `n - 1`, and LTTB passes its boundary checks on every series of that size
(`offsets_sound`). With as many buckets as interior points the width is exactly one and
boundary `i` is `i + 1` (`boundary_self`).

Far above that size the margin is gone: for `1073741828` points and `1073741816` output points
two neighbouring boundaries coincide, and for `3 * 2^51 + 3` points and `5` output points the
last boundary is one past the last index (`offsets_fail_at_large_sizes`).
-/

namespace Decimation

/-- The float literal `1`. -/
theorem posValue_one : PosValue 1 1 := by
  have h := posValue_ofNat (i := 1) one_pos (by norm_num)
  rwa [Nat.cast_one] at h

/-! ## One boundary -/

section Boundary

variable {q : Float} {w : ℚ}

/-- Boundary `0` is `1` for every positive width. -/
theorem boundary_zero (hq : PosValue q w) : PosValue (1 + Float.ofNat 0 * q) 1 := by
  have hz : (Float.ofNat 0 * q).toModel.unpack = .zero .positive := zero_mul_posValue rfl hq
  rw [add_zero_eq hz posValue_one.zeroNeutral]
  exact posValue_one

/-- Boundary `i` of a width of value at least one half, with `i * w` at most `B ≤ 2^53`: two
roundings, of the product and of the sum, move it at most `(2 B + 2) 2^-53` from `1 + i * w`. -/
theorem boundary_near {i : ℕ} {B : ℚ} (hq : PosValue q w) (hw : 1 / 2 ≤ w) (hi : 1 ≤ i)
    (hi53 : i < 2 ^ 53) (hiw : i * w ≤ B) (hB : B ≤ 2 ^ 53) :
    ∃ R, PosValue (1 + Float.ofNat i * q) R ∧ |R - (1 + i * w)| ≤ (2 * B + 2) / 2 ^ 53 := by
  have hiq : (1 : ℚ) ≤ i := by exact_mod_cast hi
  have h54 : (2 : ℚ) ^ 54 ≤ 2 ^ 1022 := pow_le_pow_right₀ one_le_two (by norm_num)
  have hcap : B + 2 ≤ 2 ^ 1022 := le_trans (by linarith) h54
  have hiw0 : (1 : ℚ) / 2 ≤ i * w := by nlinarith
  obtain ⟨P, hP, hPe⟩ := exists_roundsTo_of_half_le (v := i * w) hiw0
    (hiw.trans ((le_add_of_nonneg_right zero_le_two).trans hcap))
  have hPv : |P - i * w| ≤ B / 2 ^ 53 := hPe.trans (by gcongr)
  have hP' := abs_le.mp hPv
  have hB1 : B / 2 ^ 53 ≤ 1 := by rw [div_le_one (by norm_num)]; exact hB
  have hP2 : 1 + P ≤ B + 2 := by linarith
  obtain ⟨R, hR, hRe⟩ := exists_roundsTo_of_half_le (v := 1 + P) (by linarith) (hP2.trans hcap)
  have hRv : |R - (1 + P)| ≤ (B + 2) / 2 ^ 53 := hRe.trans (by gcongr)
  refine ⟨R, posValue_one.add ((posValue_ofNat hi (by omega)).mul hq hP) hR, ?_⟩
  calc |R - (1 + i * w)| = |(R - (1 + P)) + (P - i * w)| := by ring_nf
    _ ≤ |R - (1 + P)| + |P - i * w| := abs_add_le _ _
    _ ≤ (B + 2) / 2 ^ 53 + B / 2 ^ 53 := add_le_add hRv hPv
    _ = (2 * B + 2) / 2 ^ 53 := by ring

end Boundary

/-! ## The boundaries of `N + 2` points in `m + 2` outputs -/

/-- Boundary `i` of `N + 2` points and `m + 2` output points, as `offsets` computes it: the
integer part of `1 + i * q` for the binary64 width `q` of `N / m`. -/
def boundary (N m i : ℕ) : ℤ :=
  (truncToInt64 (1 + Float.ofNat i * (intToFloat N / intToFloat m))).toInt

section Boundaries

variable {N m : ℕ}

/-- The width: the float nearest to `N / m`. -/
theorem width_posValue (hm : 1 ≤ m) (hmN : m ≤ N) (hN : N < 2 ^ 53) {w : ℚ}
    (hw : RoundsTo (N / m) w) : PosValue (intToFloat N / intToFloat m) w :=
  (posValue_ofNat (by omega) hN).div (posValue_ofNat hm (by omega)) hw

/-- The width is at least one and at most `N`. -/
theorem quotient_bounds (hm : 1 ≤ m) (hmN : m ≤ N) : (1 : ℚ) ≤ N / m ∧ (N : ℚ) / m ≤ N := by
  have hm' : (1 : ℚ) ≤ m := by exact_mod_cast hm
  exact ⟨(one_le_div (by positivity)).mpr (by exact_mod_cast hmN),
    div_le_self (Nat.cast_nonneg _) hm'⟩

/-- The binary64 width of `N / m` exists and lies at most `2^-53` of it away. -/
theorem exists_width (hm : 1 ≤ m) (hmN : m ≤ N) (hN : N < 2 ^ 53) :
    ∃ w, PosValue (intToFloat N / intToFloat m) w ∧ |w - N / m| ≤ (N / m) / 2 ^ 53 := by
  obtain ⟨hQ1, hQN⟩ := quotient_bounds hm hmN
  have hN' : (N : ℚ) ≤ 2 ^ 1022 := by
    have : (N : ℚ) < 2 ^ 53 := by exact_mod_cast hN
    exact this.le.trans (pow_le_pow_right₀ one_le_two (by norm_num))
  obtain ⟨w, hw, hwe⟩ := exists_roundsTo_of_half_le (by linarith) (hQN.trans hN')
  exact ⟨w, width_posValue hm hmN hN hw, hwe⟩

theorem boundary_zero_eq (hm : 1 ≤ m) (hmN : m ≤ N) (hN : N < 2 ^ 53) : boundary N m 0 = 1 := by
  obtain ⟨w, hq, -⟩ := exists_width hm hmN hN
  have h := truncToInt64_of_posValue (boundary_zero hq) (by norm_num)
  rw [boundary, h, Int.floor_one]

/-- With as many buckets as points between the ends the width is `1`, and boundary `i` is
`i + 1` exactly, while `i + 1` is below `2^53` and so a float. -/
theorem boundary_self (hN : N + 1 < 2 ^ 53) {i : ℕ} (hi : i ≤ N) (hN1 : 1 ≤ N) :
    boundary N N i = i + 1 := by
  have hq : PosValue (intToFloat N / intToFloat N) 1 := by
    have h := width_posValue hN1 le_rfl (by omega) (w := 1) (by
      rw [div_self (by positivity)]
      simpa using roundsTo_natCast (i := 1) one_pos (by norm_num))
    exact h
  rcases Nat.eq_zero_or_pos i with rfl | hi0
  · have h := truncToInt64_of_posValue (boundary_zero hq) (by norm_num)
    rw [boundary, h, Int.floor_one]
    rfl
  · have hprod : PosValue (Float.ofNat i * (intToFloat N / intToFloat N)) i :=
      (posValue_ofNat hi0 (by omega)).mul hq (by rw [mul_one]; exact roundsTo_natCast hi0 (by omega))
    have hone : RoundsTo (1 + i) (1 + i : ℕ) := by
      have h := roundsTo_natCast (i := 1 + i) (by omega) (by omega)
      rwa [Nat.cast_add, Nat.cast_one] at h ⊢
    have hsum : PosValue (1 + Float.ofNat i * (intToFloat N / intToFloat N)) (1 + i : ℕ) :=
      posValue_one.add hprod hone
    have h := truncToInt64_of_posValue hsum (by exact_mod_cast (show 1 + i < 2 ^ 63 by omega))
    rw [boundary, h, Int.floor_natCast]
    push_cast
    ring

/-- Boundary `i` lies within `(3 N + 4) 2^-53` of `1 + i * N / m`: three roundings, of the
width, the product and the sum, each move it by `2^-53` of a value below `N + 3`. -/
theorem boundary_near_quotient (hm : 1 ≤ m) (hmN : m ≤ N) (hN : N < 2 ^ 52) {i : ℕ}
    (hi : i ≤ m) :
    ∃ R : ℚ, boundary N m i = ⌊R⌋ ∧
      |R - (1 + (i : ℚ) * ((N : ℚ) / m))| ≤ (3 * N + 4) / 2 ^ 53 := by
  obtain ⟨w, hq, hwe⟩ := exists_width hm hmN (by omega)
  obtain ⟨hQ1, hQN⟩ := quotient_bounds hm hmN
  have hN0 : (0 : ℚ) ≤ N := Nat.cast_nonneg N
  rcases Nat.eq_zero_or_pos i with rfl | hi0
  · refine ⟨1, by rw [boundary_zero_eq hm hmN (by omega), Int.floor_one], ?_⟩
    simp only [Nat.cast_zero, zero_mul, add_zero, sub_self, abs_zero]
    positivity
  have hm0 : (0 : ℚ) < m := by exact_mod_cast hm
  have hi' : (i : ℚ) ≤ m := by exact_mod_cast hi
  have hmQ : (m : ℚ) * (N / m) = N := mul_div_cancel₀ _ hm0.ne'
  have hN52 : (N : ℚ) < 2 ^ 52 := by exact_mod_cast hN
  have hwe' := abs_le.mp hwe
  have hiw : |i * w - i * (N / m)| ≤ N / 2 ^ 53 := by
    rw [← mul_sub, abs_mul, Nat.abs_cast]
    calc (i : ℚ) * |w - N / m| ≤ m * ((N / m) / 2 ^ 53) := by gcongr
      _ = N / 2 ^ 53 := by rw [← mul_div_assoc, hmQ]
  have hiw' := abs_le.mp hiw
  have hiQ : (i : ℚ) * (N / m) ≤ N := by
    calc (i : ℚ) * (N / m) ≤ m * (N / m) := by gcongr
      _ = N := hmQ
  have hN1 : (N : ℚ) / 2 ^ 53 ≤ 1 := by rw [div_le_one (by norm_num)]; linarith
  obtain ⟨R, hR, hRe⟩ := boundary_near hq (by nlinarith) hi0 (by omega)
    (show (i : ℚ) * w ≤ N + 1 by linarith) (by linarith)
  have hRe' := abs_le.mp hRe
  refine ⟨R, truncToInt64_of_posValue hR (by linarith), ?_⟩
  rw [abs_le]
  constructor <;> linarith

/-- Under the size bound the error of a boundary is small against one bucket: twice it, over
`m` buckets, stays below one. -/
theorem boundary_error_mul (hN : (N + 2) * (m + 2) ≤ 2 ^ 50) :
    2 * ((3 * (N : ℚ) + 4) / 2 ^ 53) * m ≤ 3 / 4 := by
  have hQ : ((N : ℚ) + 2) * (m + 2) ≤ 2 ^ 50 := by exact_mod_cast hN
  have hN0 : (0 : ℚ) ≤ N := Nat.cast_nonneg N
  have hm0 : (0 : ℚ) ≤ m := Nat.cast_nonneg m
  have : (3 * (N : ℚ) + 4) * m ≤ 3 * 2 ^ 50 := by nlinarith
  calc 2 * ((3 * (N : ℚ) + 4) / 2 ^ 53) * m = 2 * ((3 * N + 4) * m) / 2 ^ 53 := by ring
    _ ≤ 2 * (3 * 2 ^ 50) / 2 ^ 53 := by gcongr
    _ = 3 / 4 := by norm_num

theorem add_two_le_of_size_bound (hN : (N + 2) * (m + 2) ≤ 2 ^ 50) : N + 2 ≤ 2 ^ 50 :=
  (Nat.le_mul_of_pos_right (N + 2) (by omega)).trans hN

/-- Two neighbouring boundaries are the floors of two values whose distance lies within twice
the error of one boundary from the width `N / m`. -/
theorem boundary_step_near (hm : 1 ≤ m) (hmN : m ≤ N) (hN : (N + 2) * (m + 2) ≤ 2 ^ 50) {i : ℕ}
    (hi : i < m) : ∃ R R' : ℚ, boundary N m i = ⌊R⌋ ∧ boundary N m (i + 1) = ⌊R'⌋ ∧
      |R' - R - N / m| ≤ 2 * ((3 * N + 4) / 2 ^ 53) := by
  have hN50 := add_two_le_of_size_bound hN
  obtain ⟨R, hR, hRe⟩ := boundary_near_quotient hm hmN (by omega) hi.le
  obtain ⟨R', hR', hRe'⟩ := boundary_near_quotient hm hmN (by omega) (Nat.succ_le_of_lt hi)
  refine ⟨R, R', hR, hR', ?_⟩
  have h1 := abs_le.mp hRe
  have h2 := abs_le.mp hRe'
  push_cast at h2
  rw [abs_le]
  constructor <;> linarith

/-- Consecutive boundaries rise. With as many buckets as points between the ends every
boundary is exact; with fewer, the width exceeds one by at least `1 / m`, more than the two
boundaries can move. -/
theorem boundary_lt_succ (hm : 1 ≤ m) (hmN : m ≤ N) (hN : (N + 2) * (m + 2) ≤ 2 ^ 50) {i : ℕ}
    (hi : i < m) : boundary N m i < boundary N m (i + 1) := by
  have hN50 := add_two_le_of_size_bound hN
  rcases Nat.lt_or_eq_of_le hmN with hlt | rfl
  · obtain ⟨R, R', hR, hR', hstep⟩ := boundary_step_near hm hmN hN hi
    have hm0 : (0 : ℚ) < m := by exact_mod_cast hm
    set e : ℚ := (3 * N + 4) / 2 ^ 53 with he
    -- the width exceeds one by at least `1 / m`, and twice the error is less
    have hgap : 1 + 2 * e ≤ (N : ℚ) / m := by
      have hNm : (m : ℚ) + 1 ≤ N := by exact_mod_cast hlt
      have hem := boundary_error_mul hN
      rw [le_div_iff₀ hm0]
      nlinarith
    have hrise : R + 1 ≤ R' := by linarith [(abs_le.mp hstep).1]
    rw [hR, hR']
    calc ⌊R⌋ < ⌊R⌋ + 1 := Int.lt_succ _
      _ = ⌊R + 1⌋ := (Int.floor_add_one R).symm
      _ ≤ ⌊R'⌋ := Int.floor_mono hrise
  · rw [boundary_self (by omega) hi.le hm, boundary_self (by omega) hi hm]
    omega

/-- A bucket holds fewer than `N / m + 2` points: the floors of two neighbouring boundaries lie
less than one plus the width plus twice the error apart. -/
theorem boundary_succ_sub_lt (hm : 1 ≤ m) (hmN : m ≤ N) (hN : (N + 2) * (m + 2) ≤ 2 ^ 50)
    {i : ℕ} (hi : i < m) : ((boundary N m (i + 1) - boundary N m i : ℤ) : ℚ) * m < N + 2 * m := by
  obtain ⟨R, R', hR, hR', hstep⟩ := boundary_step_near hm hmN hN hi
  have hm0 : (0 : ℚ) < m := by exact_mod_cast hm
  have hm1 : (1 : ℚ) ≤ m := by exact_mod_cast hm
  have hem := boundary_error_mul hN
  set e : ℚ := (3 * N + 4) / 2 ^ 53 with he
  have hdiff : R' - R ≤ N / m + 2 * e := by linarith [(abs_le.mp hstep).2]
  have hfloor : ((⌊R'⌋ - ⌊R⌋ : ℤ) : ℚ) < R' - R + 1 := by
    push_cast
    linarith [Int.floor_le R', Int.lt_floor_add_one R]
  rw [hR, hR']
  calc ((⌊R'⌋ - ⌊R⌋ : ℤ) : ℚ) * m < (R' - R + 1) * m := mul_lt_mul_of_pos_right hfloor hm0
    _ ≤ (N / m + 2 * e + 1) * m := by gcongr
    _ = N + 2 * e * m + m := by field_simp
    _ < N + 2 * m := by linarith

/-- The last boundary is `N` or `N + 1`: it ends the last bucket at the point before the last
or at the last point. -/
theorem boundary_last (hm : 1 ≤ m) (hmN : m ≤ N) (hN : (N + 2) * (m + 2) ≤ 2 ^ 50) :
    boundary N m m = N ∨ boundary N m m = N + 1 := by
  have hN50 := add_two_le_of_size_bound hN
  obtain ⟨R, hR, hRe⟩ := boundary_near_quotient hm hmN (by omega) le_rfl
  have hm0 : (0 : ℚ) < m := by exact_mod_cast hm
  rw [mul_div_cancel₀ _ hm0.ne'] at hRe
  -- twice the error is below one even for a single bucket, so `R` lies strictly between `N` and
  -- `N + 2`
  have hsmall : (3 * (N : ℚ) + 4) / 2 ^ 53 ≤ 3 / 8 := by
    have hem := boundary_error_mul hN
    have hm1 : (1 : ℚ) ≤ m := by exact_mod_cast hm
    have he0 : (0 : ℚ) ≤ (3 * N + 4) / 2 ^ 53 := by positivity
    nlinarith
  have h := abs_le.mp (hRe.trans hsmall)
  rw [hR]
  rcases lt_or_ge R (N + 1) with hlt | hge
  · left
    rw [Int.floor_eq_iff]
    push_cast
    constructor <;> linarith
  · right
    rw [Int.floor_eq_iff]
    push_cast
    constructor <;> linarith

/-- Every boundary lies between the first, `1`, and the last. -/
theorem boundary_bounds (hm : 1 ≤ m) (hmN : m ≤ N) (hN : (N + 2) * (m + 2) ≤ 2 ^ 50) {i : ℕ}
    (hi : i ≤ m) : 1 ≤ boundary N m i ∧ boundary N m i ≤ boundary N m m := by
  have hN50 := add_two_le_of_size_bound hN
  constructor
  · induction i with
    | zero => rw [boundary_zero_eq hm hmN (by omega)]
    | succ i ih =>
      have := boundary_lt_succ hm hmN hN (show i < m by omega)
      have := ih (by omega)
      omega
  · -- the boundaries rise from `i` to `m`
    have hrise : ∀ d, i + d ≤ m → boundary N m i ≤ boundary N m (i + d) := by
      intro d
      induction d with
      | zero => exact fun _ => le_rfl
      | succ d ih =>
        intro hd
        have := boundary_lt_succ hm hmN hN (show i + d < m by omega)
        have := ih (by omega)
        rw [← Nat.add_assoc]
        omega
    simpa [Nat.add_sub_cancel' hi] using hrise (m - i) (by omega)

end Boundaries

/-! ## The boundary list -/


/-- The boundaries of at least three points and three output points, as naturals. -/
theorem offsets_eq_map {n nOut : ℕ} (hn : 3 ≤ n) (hout : 3 ≤ nOut) :
    offsets n nOut = some ((List.range (nOut - 1)).map (boundary (n - 2) (nOut - 2))) := by
  rw [offsets_eq (by omega) (by omega)]
  have h1 : ((nOut : ℤ) - 1).toNat = nOut - 1 := by omega
  have h2 : (n : ℤ) - 2 = ((n - 2 : ℕ) : ℤ) := by omega
  have h3 : (nOut : ℤ) - 2 = ((nOut - 2 : ℕ) : ℤ) := by omega
  rw [h1, h2, h3]
  rfl

/-- Rising boundaries have no empty bucket. -/
theorem firstEmptyBucket_eq_none {off : List ℤ} (h : off.IsChain (· < ·)) (i : ℕ) :
    firstEmptyBucket? i off = none := by
  fun_induction firstEmptyBucket? i off with
  | case1 i lo hi rest hle =>
    rw [List.isChain_cons_cons] at h
    omega
  | case2 i lo hi rest hlt ih => exact ih (List.isChain_cons_cons.mp h).2
  | case3 => rfl

/-- The boundaries of `n` points and `nOut` output points as naturals, as the boundary check
hands them on. -/
def boundaryNats (n nOut : ℕ) : List ℕ :=
  (List.range (nOut - 1)).map fun i => (boundary (n - 2) (nOut - 2) i).toNat

section BoundaryList

variable {n nOut : ℕ}

/-- The size bound on `n` points and `nOut` outputs, as the boundary lemmas take it. -/
theorem size_bound_sub_two (hout : 3 ≤ nOut) (hle : nOut ≤ n) (hn : n * nOut ≤ 2 ^ 50) :
    (n - 2 + 2) * (nOut - 2 + 2) ≤ 2 ^ 50 := by
  rwa [Nat.sub_add_cancel (by omega : 2 ≤ n), Nat.sub_add_cancel (by omega : 2 ≤ nOut)]

theorem le_of_size_bound (hout : 3 ≤ nOut) (hle : nOut ≤ n) (hn : n * nOut ≤ 2 ^ 50) :
    n ≤ 2 ^ 50 := by
  have := add_two_le_of_size_bound (size_bound_sub_two hout hle hn)
  omega

theorem boundaryNats_eq (n nOut : ℕ) : boundaryNats n nOut =
    ((List.range (nOut - 1)).map (boundary (n - 2) (nOut - 2))).map Int.toNat := by
  rw [List.map_map]
  rfl

theorem boundaries_isChain (hout : 3 ≤ nOut) (hle : nOut ≤ n) (hn : n * nOut ≤ 2 ^ 50) :
    ((List.range (nOut - 1)).map (boundary (n - 2) (nOut - 2))).IsChain (· < ·) := by
  rw [List.isChain_map, show nOut - 1 = nOut - 2 + 1 by omega, List.isChain_range_succ]
  exact fun i hi => boundary_lt_succ (by omega) (by omega) (size_bound_sub_two hout hle hn) hi

theorem boundaries_getLast? (hout : 3 ≤ nOut) :
    ((List.range (nOut - 1)).map (boundary (n - 2) (nOut - 2))).getLast? =
      some (boundary (n - 2) (nOut - 2) (nOut - 2)) := by
  rw [List.getLast?_map, show nOut - 1 = nOut - 2 + 1 by omega, List.getLast?_range]
  rfl

theorem headD_boundaryNats (hout : 3 ≤ nOut) (hle : nOut ≤ n) (hn : n * nOut ≤ 2 ^ 50) :
    (boundaryNats n nOut).headD 0 = 1 := by
  have := le_of_size_bound hout hle hn
  rw [boundaryNats, show nOut - 1 = nOut - 2 + 1 by omega, List.range_succ_eq_map, List.map_cons,
    List.headD_cons, boundary_zero_eq (by omega) (by omega) (by omega)]
  rfl

theorem getLastD_boundaryNats (hout : 3 ≤ nOut) :
    (boundaryNats n nOut).getLastD 0 = (boundary (n - 2) (nOut - 2) (nOut - 2)).toNat := by
  rw [boundaryNats_eq, List.getLastD_eq_getLast?, List.getLast?_map, boundaries_getLast? hout]
  rfl

/-- Every natural boundary lies between `1` and the last. -/
theorem mem_boundaryNats (hout : 3 ≤ nOut) (hle : nOut ≤ n) (hn : n * nOut ≤ 2 ^ 50) {b : ℕ}
    (hb : b ∈ boundaryNats n nOut) : 1 ≤ b ∧ b ≤ (boundaryNats n nOut).getLastD 0 := by
  rw [getLastD_boundaryNats hout]
  obtain ⟨i, hi, rfl⟩ := List.mem_map.mp hb
  rw [List.mem_range] at hi
  have := boundary_bounds (N := n - 2) (by omega) (by omega) (size_bound_sub_two hout hle hn)
    (show i ≤ nOut - 2 by omega)
  omega

theorem boundaryNats_isChain (hout : 3 ≤ nOut) (hle : nOut ≤ n) (hn : n * nOut ≤ 2 ^ 50) :
    (boundaryNats n nOut).IsChain (· < ·) := by
  rw [boundaryNats, List.isChain_map, show nOut - 1 = nOut - 2 + 1 by omega, List.isChain_range_succ]
  intro i hi
  show (boundary (n - 2) (nOut - 2) i).toNat < (boundary (n - 2) (nOut - 2) (i + 1)).toNat
  -- the boundaries are positive, so they rise as naturals too
  have hsize := size_bound_sub_two hout hle hn
  have := boundary_lt_succ (N := n - 2) (by omega) (by omega) hsize hi
  have := (boundary_bounds (N := n - 2) (by omega) (by omega) hsize hi.le).1
  omega

/-- Neighbouring natural boundaries lie less than `(n - 2) / (nOut - 2) + 2` apart. -/
theorem boundaryNats_isChain_width (hout : 3 ≤ nOut) (hle : nOut ≤ n) (hn : n * nOut ≤ 2 ^ 50) :
    (boundaryNats n nOut).IsChain fun a b => (b - a) * (nOut - 2) < n - 2 + 2 * (nOut - 2) := by
  rw [boundaryNats, List.isChain_map, show nOut - 1 = nOut - 2 + 1 by omega, List.isChain_range_succ]
  intro i hi
  have hsize := size_bound_sub_two hout hle hn
  have hw := boundary_succ_sub_lt (N := n - 2) (by omega) (by omega) hsize hi
  have hlt := boundary_lt_succ (N := n - 2) (by omega) (by omega) hsize hi
  have hb := (boundary_bounds (N := n - 2) (by omega) (by omega) hsize hi.le).1
  set b := boundary (n - 2) (nOut - 2) i
  set b' := boundary (n - 2) (nOut - 2) (i + 1)
  -- both boundaries are positive, so their distance is a natural
  obtain ⟨d, hd⟩ : ∃ d : ℕ, b' - b = d := ⟨(b' - b).toNat, by omega⟩
  show (b'.toNat - b.toNat) * (nOut - 2) < n - 2 + 2 * (nOut - 2)
  rw [show b'.toNat - b.toNat = d by omega]
  rw [hd] at hw
  exact_mod_cast hw

/-- Boundaries that rise and end by the last index pass the check. -/
theorem checkedOffsets_eq_ok_of_rising (hn : 3 ≤ n) (hout : 3 ≤ nOut)
    (hrise : ((List.range (nOut - 1)).map (boundary (n - 2) (nOut - 2))).IsChain (· < ·))
    (hend : boundary (n - 2) (nOut - 2) (nOut - 2) ≤ (n : ℤ) - 1) :
    checkedOffsets n nOut = .ok (boundaryNats n nOut) := by
  have hoff := offsets_eq_map hn hout
  have hlast : ((List.range (nOut - 1)).map (boundary (n - 2) (nOut - 2))).getLastD 0 ≤
      (n : ℤ) - 1 := by
    rw [List.getLastD_eq_getLast?, boundaries_getLast? hout, Option.getD_some]
    exact hend
  unfold checkedOffsets
  simp only [hoff, Option.getD_some, firstEmptyBucket_eq_none hrise]
  rw [if_neg (by omega), boundaryNats_eq]
  rfl

/-- Under the size bound the boundary check passes. -/
theorem checkedOffsets_eq_ok (hout : 3 ≤ nOut) (hle : nOut ≤ n) (hn : n * nOut ≤ 2 ^ 50) :
    checkedOffsets n nOut = .ok (boundaryNats n nOut) := by
  have hend := boundary_last (N := n - 2) (m := nOut - 2) (by omega) (by omega)
    (size_bound_sub_two hout hle hn)
  exact checkedOffsets_eq_ok_of_rising (by omega) hout (boundaries_isChain hout hle hn)
    (by omega)

/-- Once its boundaries pass the check, LTTB keeps `0`, one pick per bucket, and the last
index. -/
theorem lttb_eq_of_checkedOffsets (hout : 3 ≤ nOut) (hle : nOut ≤ n) {xs ys : Array Float}
    (hx : xs.size = n) (hy : ys.size = n) {B : List ℕ} (hB : checkedOffsets n nOut = .ok B) :
    lttb xs ys nOut = .ok (0 :: pickBuckets xs ys (Series.pointAt xs ys (n - 1)) 0 B ++
      [n - 1]) := by
  subst hx
  rw [lttb_eq_map (by omega) (by omega) (by omega), hB]
  rfl

/-- Past its four checks, LTTB fails exactly as the boundary check does. -/
theorem lttb_eq_error_of_checkedOffsets (hout : 3 ≤ nOut) (hle : nOut ≤ n)
    {xs ys : Array Float} (hx : xs.size = n) (hy : ys.size = n) {e : SelectError}
    (hB : checkedOffsets n nOut = .error e) : lttb xs ys nOut = .error e := by
  subst hx
  rw [lttb_eq_map (by omega) (by omega) (by omega), hB]
  rfl

/-- Under the size bound LTTB succeeds on every series: it keeps `0`, one pick per bucket, and
the last index. -/
theorem lttb_eq_ok (hout : 3 ≤ nOut) (hle : nOut ≤ n) (hn : n * nOut ≤ 2 ^ 50) {xs ys : Array Float}
    (hx : xs.size = n) (hy : ys.size = n) :
    lttb xs ys nOut = .ok (0 :: pickBuckets xs ys (Series.pointAt xs ys (n - 1)) 0
      (boundaryNats n nOut) ++ [n - 1]) :=
  lttb_eq_of_checkedOffsets hout hle hx hy (checkedOffsets_eq_ok hout hle hn)

end BoundaryList

/-- While `n * nOut ≤ 2^50` the boundaries number `nOut - 1`, start at `1`, rise strictly and
end at the point before the last or at the last point; the boundary checks pass, and LTTB
succeeds on every series of that size. -/
theorem offsets_sound {n nOut : ℕ} (hout : 3 ≤ nOut) (hle : nOut ≤ n) (hn : n * nOut ≤ 2 ^ 50) :
    ∃ off, offsets n nOut = some off ∧ off.length = nOut - 1 ∧ off[0]? = some 1 ∧
      off.Pairwise (· < ·) ∧
      (off.getLast? = some ((n : ℤ) - 2) ∨ off.getLast? = some ((n : ℤ) - 1)) ∧
      checkedOffsets n nOut = .ok (off.map Int.toNat) ∧
      ∀ xs ys : Array Float, xs.size = n → ys.size = n → ∃ s, lttb xs ys nOut = .ok s := by
  set off := (List.range (nOut - 1)).map (boundary (n - 2) (nOut - 2)) with hoff_def
  have hn50 := le_of_size_bound hout hle hn
  have hlast := boundary_last (N := n - 2) (m := nOut - 2) (by omega) (by omega)
    (size_bound_sub_two hout hle hn)
  have hchecked : checkedOffsets n nOut = .ok (off.map Int.toNat) := by
    rw [checkedOffsets_eq_ok hout hle hn, boundaryNats_eq]
  refine ⟨off, offsets_eq_map (by omega) hout, by simp [off], ?_,
    (boundaries_isChain hout hle hn).pairwise, ?_, hchecked,
    fun xs ys hx hy => ⟨_, lttb_eq_ok hout hle hn hx hy⟩⟩
  · rw [hoff_def, List.getElem?_map, List.getElem?_range (by omega), Option.map_some,
      boundary_zero_eq (by omega) (by omega) (by omega)]
  · rw [boundaries_getLast? hout]
    rcases hlast with h | h
    · left
      rw [h]
      congr 1
      omega
    · right
      rw [h]
      congr 1
      omega

/-- Seventeen points in thirteen outputs: the boundaries are sound, and LTTB succeeds. -/
theorem offsets_sound_seventeen :
    (3 ≤ 13 ∧ 13 ≤ 17 ∧ 17 * 13 ≤ 2 ^ 50) ∧
      ∃ off, offsets (17 : ℕ) (13 : ℕ) = some off ∧ off.length = 13 - 1 ∧ off[0]? = some 1 ∧
        off.Pairwise (· < ·) ∧
        (off.getLast? = some (((17 : ℕ) : ℤ) - 2) ∨ off.getLast? = some (((17 : ℕ) : ℤ) - 1)) ∧
        checkedOffsets 17 (13 : ℕ) = .ok (off.map Int.toNat) ∧
        ∀ xs ys : Array Float, xs.size = 17 → ys.size = 17 → ∃ s, lttb xs ys (13 : ℕ) = .ok s :=
  ⟨by norm_num, offsets_sound (by norm_num) (by norm_num) (by norm_num)⟩

/-- Far above the size bound the boundaries break both promises. For `1073741828` points and
`1073741816` output points the roundings outgrow the margin, and boundaries `1073741812` and
`1073741813` are both `1073741825`. For `3 * 2^51 + 3` points and `5` output points the width
`2^51 + 1/3` rounds to `2^51 + 1/2`, three widths fall halfway between two floats and round to
the even one above, and the last boundary is the point count itself: LTTB refuses every series
of that size because its last bucket ends past the last index. -/
theorem offsets_fail_at_large_sizes :
    (∃ off, offsets 1073741828 1073741816 = some off ∧
      off[1073741812]? = some 1073741825 ∧ off[1073741813]? = some 1073741825) ∧
    offsets 6755399441055747 5 =
      some [1, 2251799813685249, 4503599627370498, 6755399441055747] ∧
    ∀ xs ys : Array Float, xs.size = 6755399441055747 → ys.size = 6755399441055747 →
      lttb xs ys (5 : ℕ) = .error (.lastBucketPastEnd 6755399441055747 6755399441055746) := by
  refine ⟨?coincide, by decide +kernel, ?pastEnd⟩
  case coincide =>
    have hoff := @offsets_eq_map 1073741828 1073741816 (by norm_num) (by norm_num)
    rw [show 1073741828 - 2 = 1073741826 from rfl, show 1073741816 - 2 = 1073741814 from rfl]
      at hoff
    have h1 : boundary 1073741826 1073741814 1073741812 = 1073741825 := by decide +kernel
    have h2 : boundary 1073741826 1073741814 1073741813 = 1073741825 := by decide +kernel
    refine ⟨_, hoff, ?_, ?_⟩
    · rw [List.getElem?_map, List.getElem?_range (by norm_num), Option.map_some, h1]
    · rw [List.getElem?_map, List.getElem?_range (by norm_num), Option.map_some, h2]
  case pastEnd =>
    intro xs ys hx hy
    have hB : checkedOffsets 6755399441055747 (5 : ℕ) =
        .error (.lastBucketPastEnd 6755399441055747 6755399441055746) := by decide +kernel
    exact lttb_eq_error_of_checkedOffsets (by norm_num) (by norm_num) hx hy hB

end Decimation
