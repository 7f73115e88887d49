/-!
# xxHash64

The 64-bit xxHash of a byte string with seed zero. Inputs of 32 bytes or more are consumed in
stripes of 32 bytes by four accumulators; the rest in words of 8 and 4 bytes and single bytes,
all little-endian; a final avalanche mixes the bits. All arithmetic is modulo `2^64`.
-/

namespace Decimation.XxHash64

def prime1 : UInt64 := 11400714785074694791
def prime2 : UInt64 := 14029467366897019727
def prime3 : UInt64 := 1609587929392839161
def prime4 : UInt64 := 9650029242287828579
def prime5 : UInt64 := 2870177450012600261

/-- Rotates left by `r` bits. -/
def rotl (x : UInt64) (r : UInt64) : UInt64 := (x <<< r) ||| (x >>> (64 - r))

/-- The byte at `i`, or zero past the end. -/
def byteAt (d : ByteArray) (i : Nat) : UInt64 :=
  if h : i < d.size then d[i].toUInt64 else 0

/-- The little-endian word of `n` bytes at `i`. -/
def wordAt (d : ByteArray) (i n : Nat) : UInt64 :=
  (List.range n).foldr (fun k acc => (acc <<< 8) ||| byteAt d (i + k)) 0

/-- One accumulator step. -/
def round (acc input : UInt64) : UInt64 := rotl (acc + input * prime2) 31 * prime1

/-- Folds an accumulator into the hash. -/
def mergeRound (h v : UInt64) : UInt64 := (h ^^^ round 0 v) * prime1 + prime4

/-- The four accumulators after the stripes starting at `pos`, while 32 bytes remain. -/
def stripes (d : ByteArray) (pos : Nat) (v : UInt64 × UInt64 × UInt64 × UInt64) :
    Nat × (UInt64 × UInt64 × UInt64 × UInt64) :=
  if pos + 32 ≤ d.size then
    let (v1, v2, v3, v4) := v
    stripes d (pos + 32)
      (round v1 (wordAt d pos 8), round v2 (wordAt d (pos + 8) 8),
        round v3 (wordAt d (pos + 16) 8), round v4 (wordAt d (pos + 24) 8))
  else (pos, v)
termination_by d.size - pos

/-- Mixes the bytes from `pos` to the end into `h`. -/
def tail (d : ByteArray) (pos : Nat) (h : UInt64) : UInt64 :=
  if pos + 8 ≤ d.size then
    tail d (pos + 8) (rotl (h ^^^ round 0 (wordAt d pos 8)) 27 * prime1 + prime4)
  else if pos + 4 ≤ d.size then
    tail d (pos + 4) (rotl (h ^^^ wordAt d pos 4 * prime1) 23 * prime2 + prime3)
  else if pos < d.size then
    tail d (pos + 1) (rotl (h ^^^ byteAt d pos * prime5) 11 * prime1)
  else h
termination_by d.size - pos

/-- The final mixing of all bits. -/
def avalanche (h : UInt64) : UInt64 :=
  let h := (h ^^^ (h >>> 33)) * prime2
  let h := (h ^^^ (h >>> 29)) * prime3
  h ^^^ (h >>> 32)

/-- The xxHash64 of a byte string with seed zero. -/
def hash (d : ByteArray) : UInt64 :=
  let (pos, h) :=
    if 32 ≤ d.size then
      let (pos, (v1, v2, v3, v4)) := stripes d 0 (prime1 + prime2, prime2, 0, 0 - prime1)
      let h := rotl v1 1 + rotl v2 7 + rotl v3 12 + rotl v4 18
      (pos, mergeRound (mergeRound (mergeRound (mergeRound h v1) v2) v3) v4)
    else (0, prime5)
  avalanche (tail d pos (h + d.size.toUInt64))

end Decimation.XxHash64
