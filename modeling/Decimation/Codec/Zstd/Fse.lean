import Decimation.Codec.Zstd.Bits
/-!
# Finite state entropy tables

An FSE table of accuracy `log` has `2^log` cells. It is described by a distribution: for each
symbol a count of cells, where `-1` marks a symbol of less than one cell that still gets one.
The description is read forward: four bits give `log - 5`, then each count is read in a
variable number of bits that shrinks as the cells left to hand out shrink, a zero count being
followed by two-bit repeat fields for further zero counts. The counts must hand out exactly
`2^log` cells.

The description is seen through a window of four bytes that moves on as bits are used.
Near the end of the buffer the window stops moving: after repeat fields its bits shift
instead, with zeros coming in at the top, and after a count it rests on the last four bytes.
A count read after such a shift sees those zeros, not the bytes past the window.

Cells are dealt to symbols by a fixed walk: symbols of less than one cell take the top cells,
the others are spread with the step `size/2 + size/8 + 3`, skipping the top. A cell then
records its symbol, how many bits to read for the next state, and the base of that state.
-/

namespace Decimation.Codec.Zstd

/-- One cell of a decoding table. -/
structure Cell where
  symbol : Nat
  bits : Nat
  base : Nat
  deriving Inhabited

/-- A decoding table: its accuracy and its `2^log` cells. -/
structure FseTable where
  log : Nat
  cells : Array Cell

/-- The bytes `[pos, pos + len)` a distribution is read from: the description and whatever
follows it up to the end of its block or stream. -/
structure CountBuffer where
  data : ByteArray
  pos : Nat
  len : Nat

namespace CountBuffer

/-- The four bytes from byte `off` of the buffer, as a little-endian number. -/
def window (b : CountBuffer) (off : Nat) : Nat := leAt b.data (b.pos + off) 4

/-- The window at byte `off` can move past the whole bytes of its first `used` bits: seven
bytes are left from it, or four from where it would move to. -/
def canMove (b : CountBuffer) (off used : Nat) : Bool :=
  7 ≤ b.len - off || 4 ≤ ((b.len - off : Nat) : Int) - (used / 8 : Nat)

end CountBuffer

/-- The state of a reading of a distribution. The bits are seen through a window of four
bytes: `off` is its first byte and `stream` holds its bits from bit `used` up, with zeros
above them. The window stays at least four bytes before the end of the buffer; `used` passes
32 only when the reading has run past that end. -/
structure CountState where
  off : Nat
  used : Nat
  stream : Nat
  remaining : Int
  threshold : Nat
  width : Nat
  counts : Array Int
  afterZero : Bool

/-- Skips runs of 24 zero counts (16 bits of ones), at most `fuel` of them, counting symbols
from `n`. While more than five bytes are left from the window it moves on two bytes; after
that the bits only shift, so that zeros come in where the buffer may still hold bits. -/
def skipLongZeroRuns (b : CountBuffer) (st : CountState) (n : Nat) :
    Nat → CountState × Nat
  | 0 => (st, n)
  | fuel + 1 =>
    if st.stream % 65536 = 65535 then
      let st :=
        if 5 < b.len - st.off then
          { st with off := st.off + 2, stream := b.window (st.off + 2) / Nat.pow 2 st.used }
        else { st with stream := st.stream / 65536, used := st.used + 16 }
      skipLongZeroRuns b st (n + 24) fuel
    else (st, n)

/-- Skips runs of 3 zero counts (two bits of ones), at most `fuel` of them, counting symbols
from `n`. -/
def skipShortZeroRuns (st : CountState) (n : Nat) : Nat → CountState × Nat
  | 0 => (st, n)
  | fuel + 1 =>
    if st.stream % 4 = 3 then
      skipShortZeroRuns { st with stream := st.stream / 4, used := st.used + 2 } (n + 3) fuel
    else (st, n)

/-- Reads the zero counts a zero count announces. When the window cannot move on, its bits
shift past the last repeat field instead. -/
def readZeroRuns (b : CountBuffer) (st : CountState) : Except ZstdError CountState := do
  let (s, n0) := skipLongZeroRuns b st st.counts.size (b.len + 3)
  let (s, n0) := skipShortZeroRuns s n0 17
  let n0 := n0 + s.stream % 4
  let used := s.used + 2
  if n0 > 255 then throw (.badFse "too many symbols")
  let counts := s.counts ++ Array.replicate (n0 - s.counts.size) 0
  if b.canMove s.off used then
    let off := s.off + used / 8
    return { s with off, used := used % 8, stream := b.window off / Nat.pow 2 (used % 8), counts }
  else return { s with used, stream := s.stream / 4, counts }

/-- Reads one count (after the zero counts a zero count announces). The window then moves
past the whole bytes read, or, near the end of the buffer, comes to rest on its last four
bytes. -/
def readCount (b : CountBuffer) (st : CountState) : Except ZstdError CountState := do
  let st ← if st.afterZero then readZeroRuns b st else pure st
  let t := st.threshold
  let max : Int := 2 * (t : Int) - 1 - st.remaining
  let low := st.stream % t
  let (count, width) : Int × Nat :=
    if (low : Int) < max then (low, st.width - 1)
    else
      let c := st.stream % (2 * t)
      (if (c : Int) ≥ t then c - max else c, st.width)
  let used := st.used + width
  let count := count - 1
  let remaining := st.remaining - (if count < 0 then -count else count)
  -- shrink the field while fewer cells are left than it can describe
  let (threshold, width) := shrink remaining t st.width (st.width + 1)
  let (off, used) :=
    if b.canMove st.off used then (st.off + used / 8, used % 8)
    else (b.len - 4, used - 8 * (b.len - 4 - st.off))
  return { off, used, stream := b.window off / Nat.pow 2 (used % 32), remaining, threshold,
           width, counts := st.counts.push count, afterZero := count == 0 }
where
  shrink (remaining : Int) (t w : Nat) : Nat → Nat × Nat
    | 0 => (t, w)
    | fuel + 1 => if remaining < t then shrink remaining (t / 2) (w - 1) fuel else (t, w)

/-- Reads counts until the cells are handed out or the symbols run out. -/
def readCounts (b : CountBuffer) (maxSymbol : Nat) :
    Nat → CountState → Except ZstdError CountState
  | 0, st => .ok st
  | fuel + 1, st =>
    if st.remaining > 1 && st.counts.size ≤ maxSymbol then
      match readCount b st with
      | .ok st' => readCounts b maxSymbol fuel st'
      | .error e => .error e
    else .ok st

/-- Reads a distribution from the bytes `[pos, stop)`: the accuracy, the counts, and the
number of bytes taken. At least four bytes must be available. -/
def readDistribution (data : ByteArray) (pos stop maxSymbol maxLog : Nat) :
    Except ZstdError (Nat × Array Int × Nat) := do
  if stop < pos + 4 then throw (.badFse "input too small")
  let b : CountBuffer := ⟨data, pos, stop - pos⟩
  let w := b.window 0
  let log := w % 16 + 5
  if log > maxLog then throw (.badFse "accuracy too large")
  let st : CountState :=
    ⟨0, 4, w / 16, (Nat.pow 2 log + 1 : Nat), Nat.pow 2 log, log + 1, #[], false⟩
  let st ← readCounts b maxSymbol (maxSymbol + 2) st
  if st.counts.size ≤ 1 then throw (.badFse "too few symbols")
  if st.counts.size > maxSymbol + 1 then throw (.badFse "too many symbols")
  if st.remaining != 1 then throw (.badFse "counts do not add up")
  if st.used > 32 then throw (.badFse "description runs past its end")
  return (log, st.counts, st.off + (st.used + 7) / 8)

/-- The next position of the spreading walk that is not among the top `size - 1 - high`
cells. -/
def nextFree (step mask high : Nat) (pos : Nat) : Nat → Nat
  | 0 => pos
  | fuel + 1 =>
    let p := (pos + step) &&& mask
    if p ≤ high then p else nextFree step mask high p fuel

/-- Deals the cells of a table to the symbols of a distribution; fails when the walk does not
come back to the first cell. -/
def spread (counts : Array Int) (log : Nat) : Except ZstdError (Array Nat) := do
  let size := Nat.pow 2 log
  let mut syms := Array.replicate size 0
  let mut high : Int := size - 1
  for i in [0:counts.size] do
    if counts.getD i 0 = -1 then
      syms := syms.setIfInBounds high.toNat i
      high := high - 1
  let step := size / 2 + size / 8 + 3
  let mut pos := 0
  if 0 ≤ high then
    for i in [0:counts.size] do
      let c := counts.getD i 0
      if c > 0 then
        for _ in [0:c.toNat] do
          syms := syms.setIfInBounds pos i
          pos := nextFree step (size - 1) high.toNat pos size
  if pos != 0 then throw (.badFse "cells not dealt exactly")
  return syms

/-- The decoding table of a distribution. `strict` refuses a next-state base equal to the
table size as well (the rule of Huffman weight tables). -/
def buildTable (counts : Array Int) (log : Nat) (strict : Bool) :
    Except ZstdError FseTable := do
  let size := Nat.pow 2 log
  let syms ← spread counts log
  let mut next : Array Nat := counts.map fun c => if c = -1 then 1 else c.toNat
  let mut cells : Array Cell := #[]
  for u in [0:size] do
    let s := syms.getD u 0
    let ns := next.getD s 0
    next := next.setIfInBounds s (ns + 1)
    if ns = 0 then throw (.badFse "symbol without cells")
    let bits := log - Nat.log2 ns
    let base := ns * Nat.pow 2 bits - size
    if base > size || (strict && base = size) then throw (.badFse "state outside table")
    if base = u && bits = 0 then throw (.badFse "state without progress")
    cells := cells.push ⟨s, bits, base⟩
  return ⟨log, cells⟩

/-- The table with one cell that always yields `symbol`. -/
def FseTable.constant (symbol : Nat) : FseTable := ⟨0, #[⟨symbol, 0, 0⟩]⟩

/-- The cell of a state. -/
def FseTable.cell (t : FseTable) (state : Nat) : Cell := t.cells.getD state ⟨0, 0, 0⟩

end Decimation.Codec.Zstd
