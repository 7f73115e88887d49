import Decimation.Codec.Copy
import Decimation.Codec.Zstd.Error
/-!
# Bit streams

Zstd reads bits in two directions. Table descriptions are read *forward* (see `Fse`): bits
in increasing order, the least significant bit of each byte first. Entropy-coded streams are read
*backward*: the stream is the little-endian number of its bytes, its last byte holds a marker
bit (the highest set bit) above which nothing belongs to the stream, and values are taken from
the top down. A read that runs past the bottom of a backward stream yields zero bits in the
missing low places and leaves the stream overread.
-/

namespace Decimation.Codec.Zstd

/-- The `n` bits of `data` at bit positions `[l, l + n)` counted from the start of byte `base`,
as a number; positions at or past byte `stop` count as zeros. -/
def bitsFrom (data : ByteArray) (base stop l n : Nat) : Nat :=
  let first := l / 8
  let last := (l + n + 7) / 8
  let window := (List.range (last - first)).foldr
    (fun k acc => acc * 256 +
      (if base + first + k < stop then (byteAt data (base + first + k)).toNat else 0)) 0
  (window / Nat.pow 2 (l % 8)) % Nat.pow 2 n

/-- Like `bitsFrom`, for a start that may be negative: positions below zero count as zeros. -/
def bitsAt (data : ByteArray) (base stop : Nat) (lo : Int) (n : Nat) : Nat :=
  if lo < 0 then bitsFrom data base stop 0 (n - lo.natAbs) * Nat.pow 2 (min n lo.natAbs)
  else bitsFrom data base stop lo.toNat n

/-- A backward reader over the bytes `[base, stop)`: `left` bits remain above the bottom;
negative when the stream has been overread. -/
structure Backward where
  data : ByteArray
  base : Nat
  stop : Nat
  left : Int

namespace Backward

/-- The position of the highest set bit of a nonzero byte. -/
def highBit (b : Nat) : Nat := Nat.log2 b

/-- A backward stream over `[base, stop)`: it must hold a byte, and its last byte a marker. -/
def init (data : ByteArray) (base stop : Nat) : Except ZstdError Backward :=
  if stop ≤ base then .error (.badBitstream "stream too short")
  else
    let last := (byteAt data (stop - 1)).toNat
    if last = 0 then .error (.badBitstream "missing end marker")
    else .ok ⟨data, base, stop, (8 * (stop - 1 - base) + highBit last : Nat)⟩

/-- The next `n` bits from the top. -/
def peek (r : Backward) (n : Nat) : Nat :=
  bitsAt r.data r.base r.stop (r.left - n) n

/-- Reads `n` bits from the top. -/
def read (r : Backward) (n : Nat) : Nat × Backward :=
  (r.peek n, { r with left := r.left - n })

/-- Every bit has been read, and none past the bottom. -/
def exhausted (r : Backward) : Bool := r.left == 0

/-- A read ran past the bottom. -/
def overread (r : Backward) : Bool := r.left < 0

end Backward

end Decimation.Codec.Zstd
