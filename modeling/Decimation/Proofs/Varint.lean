import Decimation.Codec.Varint
/-!
# Reading back variable-length numbers

`readUvarint` reads back every number below `2^64` that `uvarintBytes` wrote, whatever bytes
stand before and after it (`readUvarint_uvarintBytes`), and a number takes one byte per seven
bits (`length_uvarintBytes_le`). On any input, a number read ends after the position it starts
at and inside the input (`readUvarint_bounds`), so the reader never looks past the bytes it is
given.

The writer is a recursion on the number, seven bits at a time; the reader is a loop over bytes
with ten steps of fuel. The round trip is an induction along the writer: while bytes remain,
each step of the reader consumes one written byte, and the fuel suffices because a number below
`2^64` needs at most ten bytes, the tenth of them `0` or `1`.
-/

namespace Decimation.Codec

theorem uvarintBytes_of_lt {n : Nat} (h : n < 128) : uvarintBytes n = [n.toUInt8] := by
  rw [uvarintBytes, dif_pos h]

theorem uvarintBytes_of_ge {n : Nat} (h : ¬ n < 128) :
    uvarintBytes n = (n % 128 + 128).toUInt8 :: uvarintBytes (n / 128) := by
  rw [uvarintBytes, dif_neg h]

/-- A number is written in at least one byte. -/
theorem length_uvarintBytes_pos (n : Nat) : 0 < (uvarintBytes n).length := by
  by_cases h : n < 128
  · simp [uvarintBytes_of_lt h]
  · simp [uvarintBytes_of_ge h]

/-- A number below `2^(7k)` is written in at most `k` bytes, for `k` at least one. -/
theorem length_uvarintBytes_le (n k : Nat) (hk : 0 < k) (h : n < Nat.pow 2 (7 * k)) :
    (uvarintBytes n).length ≤ k := by
  induction n using Nat.strongRecOn generalizing k with
  | ind n ih =>
    obtain ⟨k, rfl⟩ : ∃ j, k = j + 1 := ⟨k - 1, by omega⟩
    by_cases hn : n < 128
    · rw [uvarintBytes_of_lt hn]
      simp
    · rw [uvarintBytes_of_ge hn, List.length_cons]
      -- the rest of the number is below `2^(7k)`, which leaves no room for `k = 0`
      have hrest : n / 128 < Nat.pow 2 (7 * k) := by
        rw [Nat.div_lt_iff_lt_mul (by omega)]
        simpa [Nat.pow_eq, Nat.mul_succ, Nat.pow_add] using h
      have hk : 0 < k := by
        rcases Nat.eq_zero_or_pos k with rfl | h'
        · simp at hrest
          omega
        · exact h'
      have := ih (n / 128) (by omega) k hk hrest
      omega

/-! ## Reading what was written -/

section Read

variable (pre post : List UInt8)

theorem getElem_toByteArray_mid (b : UInt8) (rest : List UInt8)
    (h : pre.length < (pre ++ b :: rest ++ post).toByteArray.size) :
    (pre ++ b :: rest ++ post).toByteArray[pre.length] = b := by
  simp only [List.getElem_toByteArray]
  simp

/-- One step of the reader per written byte: the number and the position after it. -/
theorem readUvarint_go_uvarintBytes (v : Nat) :
    ∀ (fuel shift acc : Nat), 0 < fuel → v < Nat.pow 2 (7 * fuel - 6) →
      readUvarint.go (pre ++ uvarintBytes v ++ post).toByteArray pre.length shift acc fuel =
        some (acc + v * Nat.pow 2 shift, pre.length + (uvarintBytes v).length) := by
  induction v using Nat.strongRecOn generalizing pre with
  | ind v ih =>
    intro fuel shift acc hfuel hv
    obtain ⟨f, rfl⟩ : ∃ f, fuel = f + 1 := ⟨fuel - 1, by omega⟩
    by_cases hlt : v < 128
    · -- the last byte: below `128`, and at most `1` when it is the tenth
      rw [uvarintBytes_of_lt hlt]
      have hsize : pre.length < (pre ++ [v.toUInt8] ++ post).toByteArray.size := by simp
      have hb : (v.toUInt8).toNat = v := by simp; omega
      rw [readUvarint.go, dif_pos hsize]
      simp only [getElem_toByteArray_mid, hb, hlt, if_true]
      have hlast : ¬ (f = 0 ∧ v > 1) := by
        rintro ⟨rfl, h1⟩
        simp at hv
        omega
      simp [hlast]
    · -- a byte with the continuation bit, then the rest of the number shifted by seven bits
      rw [uvarintBytes_of_ge hlt]
      have hf : 0 < f := by
        rcases Nat.eq_zero_or_pos f with rfl | h
        · simp at hv
          omega
        · exact h
      have hsize : pre.length <
          (pre ++ (v % 128 + 128).toUInt8 :: uvarintBytes (v / 128) ++ post).toByteArray.size := by
        simp
      have hb : ((v % 128 + 128).toUInt8).toNat = v % 128 + 128 := by simp; omega
      have hrest : v / 128 < Nat.pow 2 (7 * f - 6) := by
        rw [Nat.div_lt_iff_lt_mul (by omega)]
        have : 7 * (f + 1) - 6 = (7 * f - 6) + 7 := by omega
        rw [this] at hv
        simpa [Nat.pow_eq, Nat.pow_add] using hv
      rw [readUvarint.go, dif_pos hsize]
      simp only [getElem_toByteArray_mid, hb, show ¬ (v % 128 + 128 < 128) by omega, if_false]
      have hsplit : pre ++ (v % 128 + 128).toUInt8 :: uvarintBytes (v / 128) ++ post =
          (pre ++ [(v % 128 + 128).toUInt8]) ++ uvarintBytes (v / 128) ++ post := by simp
      rw [hsplit]
      have hlen : pre.length + 1 = (pre ++ [(v % 128 + 128).toUInt8]).length := by simp
      rw [hlen, ih (v / 128) (by omega) _ f (shift + 7) _ hf hrest]
      -- the value: the low seven bits at `shift`, the rest seven bits higher
      have hpow : Nat.pow 2 (shift + 7) = Nat.pow 2 shift * 128 := by
        simp [Nat.pow_eq, Nat.pow_add]
      have hval : (v % 128 + 128 - 128) * Nat.pow 2 shift + v / 128 * Nat.pow 2 (shift + 7) =
          v * Nat.pow 2 shift := by
        rw [hpow, Nat.add_sub_cancel]
        conv => rhs; rw [← Nat.mod_add_div v 128]
        simp only [Nat.mul_add, Nat.mul_comm, Nat.mul_left_comm]
      simp only [List.length_append, List.length_cons, List.length_nil, Option.some.injEq,
        Prod.mk.injEq]
      exact ⟨by rw [Nat.add_assoc, hval], by omega⟩

/-- Reading back a number below `2^64` written among other bytes. -/
theorem readUvarint_uvarintBytes (v : Nat) (hv : v < Nat.pow 2 64) :
    readUvarint (pre ++ uvarintBytes v ++ post).toByteArray pre.length =
      some (v, pre.length + (uvarintBytes v).length) := by
  rw [readUvarint, readUvarint_go_uvarintBytes pre post v 10 0 0 (by decide) hv]
  simp

end Read

/-! ## Reading any input -/

/-- One step of reading a number: a byte below `128` ends it, and as the tenth byte it is at
most `1`; any other byte adds its low seven bits and the reading goes on seven bits higher. -/
theorem readUvarint_go_succ_eq_some {src : ByteArray} {p shift acc f v q : Nat}
    (h : readUvarint.go src p shift acc (f + 1) = some (v, q)) :
    ∃ hp : p < src.size,
      (src[p].toNat < 128 ∧ (f = 0 → src[p].toNat ≤ 1) ∧
        v = acc + src[p].toNat * Nat.pow 2 shift ∧ q = p + 1) ∨
      (128 ≤ src[p].toNat ∧ readUvarint.go src (p + 1) (shift + 7)
        (acc + (src[p].toNat - 128) * Nat.pow 2 shift) f = some (v, q)) := by
  rw [readUvarint.go] at h
  split at h
  · rename_i hp
    refine ⟨hp, ?_⟩
    dsimp only at h
    split at h
    · rename_i hb
      split at h
      · cases h
      · rename_i hlast
        cases h
        simp only [Bool.and_eq_true, decide_eq_true_eq, gt_iff_lt, not_and, Nat.not_lt] at hlast
        exact .inl ⟨hb, hlast, rfl, rfl⟩
    · exact .inr ⟨by omega, h⟩
  · cases h

/-- A number read starts at the position given and ends inside the input. -/
theorem readUvarint_go_bounds (src : ByteArray) :
    ∀ (fuel p shift acc v q : Nat), readUvarint.go src p shift acc fuel = some (v, q) →
      p < q ∧ q ≤ src.size := by
  intro fuel
  induction fuel with
  | zero => intro p shift acc v q h; simp [readUvarint.go] at h
  | succ f ih =>
    intro p shift acc v q h
    obtain ⟨hp, ⟨-, -, -, rfl⟩ | ⟨-, hrest⟩⟩ := readUvarint_go_succ_eq_some h
    · omega
    · have := ih _ _ _ _ _ hrest
      omega

theorem readUvarint_bounds {src : ByteArray} {pos v q : Nat}
    (h : readUvarint src pos = some (v, q)) : pos < q ∧ q ≤ src.size :=
  readUvarint_go_bounds src 10 pos 0 0 v q h

end Decimation.Codec
