import Decimation.Codec.Lz4
/-!
# Compressing LZ4 blocks

The compressor scans the input once, keeping for each hash of five bytes the last position
where they were seen (its low sixteen bits, read back inside the current or the previous
64 KiB of the input). At each position it tries the candidates for the positions `s`, `s + 1`
and `s + 2` in turn; a candidate counts when it lies strictly before the position, less than
64 KiB back, and its first four bytes agree. Without a match it moves on by
`4 + (s + 2 - anchor) / 128`, so long stretches without a match are crossed faster.

A match is first extended backwards over the pending literals, then forwards eight bytes at a
time, stopping so that the last fourteen bytes of the input are never part of a match; no match
starts in them either. The sequence then written holds the literals since the last match, the
offset, and the match; after it the position two bytes before the end of the match is hashed.
The bytes left at the end are written as a last run of literals.
-/

namespace Decimation.Codec.Lz4

/-- The hash of the low five bytes of a word, below `2^16`. -/
def hash5 (x : UInt64) : Nat := (((x &&& 0xFFFFFFFFFF) * 227718039650203) >>> 48).toNat

/-- The little-endian word of eight bytes at `i`. -/
def word64 (src : ByteArray) (i : Nat) : UInt64 := (leAt src i 8).toUInt64

/-- The little-endian word of four bytes at `i`. -/
def word32 (src : ByteArray) (i : Nat) : UInt32 := (leAt src i 4).toUInt32

/-- The position a table entry gives as seen from `si`: the stored low sixteen bits inside
the 64 KiB block of `si`, or the block before when that would not lie before `si`. -/
def entryPosition (table : Array Nat) (h si : Nat) : Int :=
  let i : Int := (table.getD h 0 : Int) + (si / 65536 * 65536 : Nat)
  if si ≤ i then i - 65536 else i

/-- Stores the low sixteen bits of a position under a hash. -/
def remember (table : Array Nat) (h si : Nat) : Array Nat := table.setIfInBounds h (si % 65536)

/-- The candidate `ref` gives a match for the four bytes `w` at `si`. -/
def agrees (src : ByteArray) (ref : Int) (si : Nat) (w : UInt32) : Bool :=
  let offset := (si : Int) - ref
  0 < offset && offset < 65536 && word32 src ref.toNat == w

/-- Where scanning stands: the hash table, the position, the start of the pending literals,
and the output so far. -/
structure Scan where
  table : Array Nat
  si : Nat
  anchor : Nat
  out : ByteArray

/-- Extends a match at `s` with offset `offset` backwards over the pending literals: the new
start and the number of bytes gained. -/
def extendBack (src : ByteArray) (anchor offset : Nat) : Nat → Nat → Nat → Nat × Nat
  | 0, s, k => (s, k)
  | fuel + 1, s, k =>
    if anchor < s ∧ offset + 1 ≤ s ∧ byteAt src (s - 1) = byteAt src (s - offset - 1) then
      extendBack src anchor offset fuel (s - 1) (k + 1)
    else (s, k)

/-- The number of zero bytes at the low end of a word. -/
def lowZeroBytes (x : UInt64) : Nat :=
  ((List.range 8).takeWhile fun k => (x >>> (8 * k).toUInt64) &&& 0xFF = 0).length

/-- Extends a match forwards from `si` eight bytes at a time while `si + 8 ≤ limit`: the end. -/
def extendForward (src : ByteArray) (offset limit : Nat) : Nat → Nat → Nat
  | 0, si => si
  | fuel + 1, si =>
    if si + 8 ≤ limit then
      let x := word64 src si ^^^ word64 src (si - offset)
      if x = 0 then extendForward src offset limit fuel (si + 8)
      else si + lowZeroBytes x
    else si

/-- The bytes of one sequence: `lits` literals of `src` from `anchor`, then a match of
`extra + 4` bytes at `offset`. -/
def sequenceBytes (src : ByteArray) (anchor lits offset extra : Nat) : ByteArray :=
  let token : Nat := min extra 15 + 16 * min lits 15
  let head : List UInt8 := token.toUInt8 :: (if lits < 15 then [] else lengthBytes lits)
  let tail : List UInt8 :=
    [(offset % 256).toUInt8, (offset / 256).toUInt8] ++ (if extra < 15 then [] else lengthBytes extra)
  ⟨head.toArray⟩ ++ src.extract anchor (anchor + lits) ++ ⟨tail.toArray⟩

/-- Writes the match found at `s` with offset `offset` and moves past it. -/
def emitMatch (src : ByteArray) (limit : Nat) (st : Scan) (s offset : Nat) : Scan :=
  let (s, k) := extendBack src st.anchor offset (s - st.anchor) s 0
  let stop := extendForward src offset limit (src.size + 1) (s + 4 + k)
  let out := st.out ++ sequenceBytes src st.anchor (s - st.anchor) offset (stop - (s + 4))
  let table :=
    if limit ≤ stop then st.table else remember st.table (hash5 (word64 src (stop - 2))) (stop - 2)
  ⟨table, stop, stop, out⟩

/-- One step of the scan at `st.si < limit`: a match written, or the position moved on. -/
def scanStep (src : ByteArray) (limit : Nat) (st : Scan) : Scan :=
  let si := st.si
  let m := word64 src si
  let h := hash5 m
  let h2 := hash5 (m >>> 8)
  let ref := entryPosition st.table h si
  let ref2 := entryPosition st.table h2 (si + 1)
  let table := remember (remember st.table h si) h2 (si + 1)
  let st := { st with table := table }
  if agrees src ref si m.toUInt32 then emitMatch src limit st si (si - ref.toNat)
  else
    let h3 := hash5 (m >>> 16)
    let ref3 := entryPosition table h3 (si + 2)
    if agrees src ref2 (si + 1) (m >>> 8).toUInt32 then
      emitMatch src limit st (si + 1) (si + 1 - ref2.toNat)
    else
      let st := { st with table := remember table h3 (si + 2) }
      if agrees src ref3 (si + 2) (m >>> 16).toUInt32 then
        emitMatch src limit st (si + 2) (si + 2 - ref3.toNat)
      else { st with si := si + 4 + (si + 2 - st.anchor) / 128 }

/-- Scans while the position is before `limit`; at most `fuel` steps. -/
def scan (src : ByteArray) (limit : Nat) : Nat → Scan → Scan
  | 0, st => st
  | fuel + 1, st => if st.si < limit then scan src limit fuel (scanStep src limit st) else st

/-- The compressed LZ4 block of `data`; see the module header. -/
def compressBlock (data : ByteArray) : ByteArray :=
  let limit := data.size - 14
  let st : Scan := ⟨Array.replicate 65536 0, 0, 0, ByteArray.empty⟩
  let st := if data.size ≤ 14 then st else scan data limit (data.size + 1) st
  st.out ++ encodeBlock (data.extract st.anchor data.size)

end Decimation.Codec.Lz4
