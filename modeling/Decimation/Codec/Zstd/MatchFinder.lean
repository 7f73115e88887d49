import Decimation.Codec.Lz4Compress
/-!
# Finding matches for a zstd block

The finder splits a block into sequences (literals, then a match) and the literals left at
its end. It keeps two tables of earlier positions: one by a hash of the next eight bytes
(`2^17` entries), one by a hash of the next five (`2^15` entries).

At a position `s` it tries, in order:

* once three sequences are written, the last offset one byte ahead (a repeat: written with
  offset value 1 and extended backwards, but never over all pending literals);
* the eight-byte candidate;
* the five-byte candidate, unless the eight-byte candidate of `s + 1` matches, which is
  taken instead.

A candidate counts when its first four bytes agree. A new match is extended forwards as far
as the block agrees and backwards over the pending literals, written with offset value
`offset + 3`, and its second and next-to-last positions are entered in the tables. Once three
sequences are written, a match is followed by as many matches at the offset before the last
as agree at once (offset value 1 with no literals, which names that offset), the two offsets
then trading places.

Without a match the finder moves on by `1 + (s - start of pending literals) / 128`. It stops
looking within ten bytes of the end; a block below sixteen bytes is all literals.
-/

namespace Decimation.Codec.Zstd

/-- A sequence as written: the literals before the match, the match length, and the offset
value (`1` to `3` name recent offsets, a larger value is the offset plus 3). -/
structure EncodedSequence where
  literals : Nat
  matchLen : Nat
  offsetValue : Nat

/-- The hash of eight bytes, below `2^17`. -/
def longHash (v : UInt64) : Nat := ((v * 0xcf1bbcdcb7a56463) >>> 47).toNat

/-- The hash of the low five bytes, below `2^15`. -/
def shortHash (v : UInt64) : Nat := (((v <<< 24) * 889523592379) >>> 49).toNat

/-- The eight bytes at `i` as a little-endian word. -/
def word64At (src : ByteArray) (i : Nat) : UInt64 := Lz4.word64 src i

/-- The four bytes at `i` as a little-endian word. -/
def word32At (src : ByteArray) (i : Nat) : UInt32 := Lz4.word32 src i

/-- How far matches may reach back. -/
def matchWindow : Nat := Nat.pow 2 23

/-- Where the finder stands: the two tables (a position plus one, zero for none), the
sequences and literals so far, the start of the pending literals, and the last two offsets. -/
structure Finder where
  long : Array Nat
  short : Array Nat
  seqs : Array EncodedSequence
  lits : ByteArray
  pending : Nat
  offset1 : Nat
  offset2 : Nat

/-- What the finder does next. -/
inductive FinderStep where
  /-- look for a match at a position -/
  | search (s : Nat)
  /-- a match at `s` with the earlier position `t` -/
  | found (s t : Nat)
  /-- look for matches at the offset before the last at a position -/
  | again (s : Nat)
  /-- stop looking -/
  | done

/-- Extends a match at `s` with the earlier `t` backwards while `t` stays above `floorT`, `s`
above `floorS`, and the bytes before agree; at most `fuel` bytes. -/
def extendBack (src : ByteArray) (floorT floorS : Nat) : Nat → Nat → Nat → Nat × Nat
  | 0, s, t => (s, t)
  | fuel + 1, s, t =>
    if floorT < t ∧ floorS < s ∧ byteAt src (t - 1) = byteAt src (s - 1) then
      extendBack src floorT floorS fuel (s - 1) (t - 1)
    else (s, t)

namespace Finder

/-- Writes a sequence whose literals run from the pending ones up to `start`. -/
def emit (src : ByteArray) (f : Finder) (start : Nat) (seq : EncodedSequence) : Finder :=
  { f with seqs := f.seqs.push seq, lits := f.lits ++ src.extract f.pending start }

/-- Enters position `p` in the long table. -/
def enterLong (f : Finder) (v : UInt64) (p : Nat) : Finder :=
  { f with long := f.long.setIfInBounds (longHash v) (p + 1) }

/-- Enters position `p` in the short table. -/
def enterShort (f : Finder) (v : UInt64) (p : Nat) : Finder :=
  { f with short := f.short.setIfInBounds (shortHash v) (p + 1) }

/-- The candidate a table entry gives, when its first four bytes agree with `v`. -/
def candidate (src : ByteArray) (entry : Nat) (v : UInt64) : Option Nat :=
  if entry > 0 ∧ word32At src (entry - 1) = v.toUInt32 then some (entry - 1) else none

end Finder

/-- One step of the finder on `src`, which stops looking at `limit`. -/
def findStep (src : ByteArray) (limit : Nat) (f : Finder) : FinderStep → Finder × FinderStep
  | .search s =>
    let cv := word64At src s
    let longEntry := f.long.getD (longHash cv) 0
    let shortEntry := f.short.getD (shortHash cv) 0
    let f := (f.enterLong cv s).enterShort cv s
    let rep := s + 1 - f.offset1
    if f.seqs.size > 2 ∧ word32At src rep = (cv >>> 8).toUInt32 then
      let length := 4 + commonLength src (s + 5) (rep + 4) (src.size - (s + 5)) 0
      let (start, _) := extendBack src (s - matchWindow) (f.pending + 1) (s + 1) (s + 1) rep
      let f := f.emit src start ⟨start - f.pending, length + (s + 1 - start), 1⟩
      let next := s + length + 1
      let f := { f with pending := next }
      if next ≥ limit then (f, .done) else (f, .search next)
    else
      match Finder.candidate src longEntry cv with
      | some t => (f, .found s t)
      | none =>
        match Finder.candidate src shortEntry cv with
        | some t =>
          let cv1 := word64At src (s + 1)
          let longNext := f.long.getD (longHash cv1) 0
          let f := f.enterLong cv1 (s + 1)
          match Finder.candidate src longNext cv1 with
          | some t1 => (f, .found (s + 1) t1)
          | none => (f, .found s t)
        | none =>
          let next := s + 1 + ((s - f.pending) >>> 7)
          if next ≥ limit then (f, .done) else (f, .search next)
  | .found s t =>
    let f := { f with offset2 := f.offset1, offset1 := s - t }
    let length := 4 + commonLength src (s + 4) (t + 4) (src.size - (s + 4)) 0
    let (s', t') := extendBack src (s - matchWindow) f.pending s s t
    let length := length + (s - s')
    let f := f.emit src s' ⟨s' - f.pending, length, s' - t' + 3⟩
    let stop := s' + length
    let f := { f with pending := stop }
    if stop ≥ limit then (f, .done)
    else
      let i0 := s' + 1
      let i1 := stop - 2
      let v0 := word64At src i0
      let v1 := word64At src i1
      let f := (((f.enterLong v0 i0).enterLong v1 i1).enterShort (v0 >>> 8) (i0 + 1)).enterShort
        (v1 >>> 8) (i1 + 1)
      if f.seqs.size ≤ 2 then (f, .search stop) else (f, .again stop)
  | .again s =>
    let cv := word64At src s
    let back := s - f.offset2
    if word32At src back ≠ cv.toUInt32 then (f, .search s)
    else
      let f := (f.enterLong cv s).enterShort cv s
      let length := 4 + commonLength src (s + 4) (back + 4) (src.size - (s + 4)) 0
      let f := f.emit src s ⟨0, length, 1⟩
      let next := s + length
      let f := { f with pending := next, offset1 := f.offset2, offset2 := f.offset1 }
      if next ≥ limit then (f, .done) else (f, .again next)
  | .done => (f, .done)

/-- Runs the finder until it stops; at most `fuel` steps. -/
def findRun (src : ByteArray) (limit : Nat) : Nat → Finder → FinderStep → Finder
  | 0, f, _ => f
  | fuel + 1, f, step =>
    match step with
    | .done => f
    | _ =>
      let (f, step) := findStep src limit f step
      findRun src limit fuel f step

/-- The sequences of a block and all its literals; see the module header. -/
def findSequences (src : ByteArray) : Array EncodedSequence × ByteArray :=
  let n := src.size
  if n < 16 then (#[], src)
  else
    let f : Finder := ⟨Array.replicate (Nat.pow 2 17) 0, Array.replicate (Nat.pow 2 15) 0, #[], ByteArray.empty,
      0, 1, 4⟩
    let f := findRun src (n - 10) (4 * n + 16) f (.search 0)
    (f.seqs, f.lits ++ src.extract f.pending n)

end Decimation.Codec.Zstd
