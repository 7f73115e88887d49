/-!
# Copying into a growing output

Every block format here rebuilds its output from two kinds of pieces: bytes taken from the
input (literals) and bytes repeated from the output itself (matches). A match reaches `offset`
bytes back and may overlap what it writes, so a match of length 5 at offset 1 repeats the last
byte five times.
-/

namespace Decimation.Codec

/-- The byte at `i`, or zero past the end. -/
def byteAt (d : ByteArray) (i : Nat) : UInt8 :=
  if h : i < d.size then d[i] else 0

theorem byteAt_of_lt {d : ByteArray} {i : Nat} (h : i < d.size) : byteAt d i = d[i] :=
  dif_pos h

/-- Appends `count` bytes of `src` starting at `pos`. -/
def appendSlice (out src : ByteArray) (pos count : Nat) : ByteArray :=
  src.copySlice pos out out.size count

/-- Appends `count` bytes, each copied from `offset` bytes before it. -/
def appendMatch (out : ByteArray) (offset count : Nat) : ByteArray :=
  match count with
  | 0 => out
  | k + 1 => appendMatch (out.push (byteAt out (out.size - offset))) offset k

/-- The little-endian number in `n` bytes at `pos`. -/
def leAt (d : ByteArray) (pos n : Nat) : Nat :=
  (List.range n).foldr (fun k acc => acc * 256 + (byteAt d (pos + k)).toNat) 0

/-- The number of bytes from `a + k` on that agree with those from `b + k` on, added to `k`,
looking at most `most` bytes further. -/
def commonLength (d : ByteArray) (a b : Nat) : Nat → Nat → Nat
  | 0, k => k
  | most + 1, k =>
    if byteAt d (a + k) = byteAt d (b + k) then commonLength d a b most (k + 1) else k

theorem size_appendMatch (out : ByteArray) (offset count : Nat) :
    (appendMatch out offset count).size = out.size + count := by
  induction count generalizing out with
  | zero => rfl
  | succ k ih => simp only [appendMatch, ih, ByteArray.size_push]; omega

end Decimation.Codec
