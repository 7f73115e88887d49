import Decimation.Codec.Copy
/-!
# LZ4 blocks

An LZ4 block is a run of sequences. A sequence opens with a token byte: its high four bits
count the literals that follow, its low four bits the match length minus four. A count of 15
continues in the following bytes, each added, until a byte other than 255. After the literals
come a two-byte little-endian offset (never zero, never reaching before the start of the
output) and the match. The block may end right after the literals of a sequence whose match
count is zero.

`decodeBlock src cap` rebuilds the bytes of a block into at most `cap` bytes; a block that
breaks a rule, ends early, or does not fit is refused. `encodeBlock` writes a valid block: one
sequence of literals only, the way a compressed block ends.
-/

namespace Decimation.Codec.Lz4

/-- Adds continuation bytes from `pos` to `acc` until a byte below 255; the new position. -/
def readLength (src : ByteArray) (pos acc : Nat) : Option (Nat × Nat) :=
  if h : pos < src.size then
    if src[pos] = 255 then readLength src (pos + 1) (acc + 255)
    else some (pos + 1, acc + src[pos].toNat)
  else none
termination_by src.size - pos

theorem readLength_pos {src : ByteArray} {pos acc : Nat} {r : Nat × Nat}
    (h : readLength src pos acc = some r) : pos < r.1 := by
  induction pos, acc using readLength.induct src with
  | case1 pos acc hp hb ih =>
    rw [readLength] at h
    simp only [hp, ↓reduceDIte, hb, ↓reduceIte] at h
    have := ih h
    omega
  | case2 pos acc hp hb =>
    rw [readLength] at h
    simp only [hp, ↓reduceDIte, hb, ↓reduceIte, Option.some.injEq] at h
    rw [← h]
    exact Nat.lt_succ_self pos
  | case3 pos acc hp =>
    rw [readLength] at h
    simp only [hp, ↓reduceDIte, reduceCtorEq] at h

/-- A count field: the four-bit value, continued when it is 15. -/
def readCount (src : ByteArray) (pos field : Nat) : Option (Nat × Nat) :=
  if field = 15 then readLength src pos 15 else some (pos, field)

/-- Decodes the sequences from `pos` on, appending to `out`, within `cap` bytes. -/
def decodeFrom (src : ByteArray) (cap : Nat) (pos : Nat) (out : ByteArray) : Option ByteArray :=
  if h : pos < src.size then
    let token := src[pos].toNat
    match hl : readCount src (pos + 1) (token / 16) with
    | none => none
    | some (p1, litLen) =>
      if p1 + litLen > src.size || out.size + litLen > cap then none
      else
        let out := appendSlice out src p1 litLen
        let p2 := p1 + litLen
        if p2 = src.size && token % 16 = 0 then some out
        else if p2 + 2 > src.size then none
        else
          let offset := leAt src p2 2
          if offset = 0 then none
          else
            match hm : readCount src (p2 + 2) (token % 16) with
            | none => none
            | some (p3, m) =>
              let matchLen := m + 4
              if out.size < offset || out.size + matchLen > cap then none
              else decodeFrom src cap p3 (appendMatch out offset matchLen)
  else some out
termination_by src.size - pos
decreasing_by
  all_goals
    have h1 : pos + 1 ≤ p1 := by
      unfold readCount at hl
      split at hl
      · have := readLength_pos hl; simp at this; omega
      · simp at hl; omega
    have h3 : p2 + 2 ≤ p3 := by
      unfold readCount at hm
      split at hm
      · have := readLength_pos hm; simp at this; omega
      · simp at hm; omega
    omega

/-- The bytes of an LZ4 block, if they are well formed and fit in `cap` bytes. -/
def decodeBlock (src : ByteArray) (cap : Nat) : Option ByteArray :=
  decodeFrom src cap 0 ByteArray.empty

/-- The continuation bytes of a count of `n ≥ 15` beyond the field: 255s and a final byte. -/
def lengthBytes (n : Nat) : List UInt8 :=
  List.replicate ((n - 15) / 255) 255 ++ [((n - 15) % 255).toUInt8]

/-- A block holding `data` as literals only. -/
def encodeBlock (data : ByteArray) : ByteArray :=
  let n := data.size
  let head : List UInt8 :=
    if n < 15 then [(n * 16).toUInt8] else 0xF0 :: lengthBytes n
  ⟨head.toArray⟩ ++ data

end Decimation.Codec.Lz4
