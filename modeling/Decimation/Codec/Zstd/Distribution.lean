import Decimation.Codec.Zstd.BitWriter
/-!
# Distributing cells

A table of `2^log` cells codes a symbol seen `c` times out of `total` with about
`c / total · 2^log` cells. `normalizeCounts` hands out the cells: a symbol seen fewer than
`total / 2^log` times gets the special count `-1` (one cell, at the top of the table); any
other gets its share rounded down, a share below 8 cells rounding up when its fraction passes
a threshold that grows with the share; the most frequent symbol absorbs the difference. When
that difference would eat half of its cells, a second method shares the cells out in
proportion to the counts of the symbols not yet served.

`describe` writes a distribution the way a decoder reads it (`readDistribution`): the
accuracy, then each count in as many bits as the cells still to hand out require, with
two-bit repeat fields after a zero count.
-/

namespace Decimation.Codec.Zstd

/-- The accuracy for coding `total` values whose largest symbol is `maxSymbol`: at most
`most`, lowered to `log2 (total - 1) - spare` for few values, raised to what the values and
the symbols need, and kept within `[5, cap]`. -/
def accuracyFor (most spare cap total maxSymbol : Nat) : Nat :=
  let needed := min (Nat.log2 total + 1) (Nat.log2 maxSymbol + 2)
  let src := Nat.log2 (total - 1)
  let log := if spare ≤ src ∧ src - spare < most then src - spare else most
  min (max (max log needed) 5) cap

/-- The fractions (in units of `2^-20` of a cell) past which a share of `0` to `7` cells
rounds up. -/
def roundUpThresholds : Array Nat := #[0, 473195, 504333, 520860, 550000, 700000, 750000, 830000]

/-- Cells for the symbols not yet served (marked `-2`), in proportion to their counts, once
the rarest have one cell each. -/
def shareRemaining (counts : Array Nat) (norm : Array Int) (total log toShare : Nat) :
    Array Int :=
  let vLog := 62 - log
  let mid := Nat.pow 2 (vLog - 1) - 1
  let rStep := (Nat.pow 2 vLog * toShare + mid) / total
  let (norm, _) := (List.range counts.size).foldl
    (fun (acc : Array Int × Nat) i =>
      let (norm, running) := acc
      if norm.getD i 0 = -2 then
        let stop := running + counts.getD i 0 * rStep
        (norm.setIfInBounds i ((stop >>> vLog : Nat) - (running >>> vLog : Nat) : Int), stop)
      else (norm, running))
    (norm, mid)
  norm

/-- Hands `k` more cells, one at a time, to the symbols with a positive count, cycling through
them from the first; at most `fuel` steps. -/
def handOutCycling (norm : Array Int) (i : Nat) : Nat → Nat → Array Int
  | 0, _ => norm
  | _, 0 => norm
  | fuel + 1, k + 1 =>
    if norm.getD i 0 > 0 then
      handOutCycling (norm.modify i (· + 1)) ((i + 1) % norm.size) fuel k
    else handOutCycling norm ((i + 1) % norm.size) fuel (k + 1)

/-- The second method: symbols seen at most `total / 2^log` times get `-1`, those seen at
most `1.5 · total / 2^log` times one cell, and the others share the rest in proportion. -/
def normalizeSpread (counts : Array Nat) (total log : Nat) : Array Int :=
  let low := total >>> log
  let lowOne := (total * 3) >>> (log + 1)
  let first := (List.range counts.size).foldl
    (fun (acc : Array Int × Nat × Nat) i =>
      let (norm, given, left) := acc
      let c := counts.getD i 0
      if c = 0 then (norm.push 0, given, left)
      else if c ≤ low then (norm.push (-1), given + 1, left - c)
      else if c ≤ lowOne then (norm.push 1, given + 1, left - c)
      else (norm.push (-2), given, left))
    (#[], 0, total)
  let (norm, given, left) := first
  let toShare := Nat.pow 2 log - given
  let (norm, given, left) :=
    if left / toShare > lowOne then
      let lowOne := (left * 3) / (toShare * 2)
      (List.range counts.size).foldl
        (fun (acc : Array Int × Nat × Nat) i =>
          let (norm, given, left) := acc
          let c := counts.getD i 0
          if norm.getD i 0 = -2 ∧ c ≤ lowOne then (norm.setIfInBounds i 1, given + 1, left - c)
          else acc)
        (norm, given, left)
    else (norm, given, left)
  let toShare := Nat.pow 2 log - given
  if left = 0 then handOutCycling norm 0 (toShare * (counts.size + 1) + 1) toShare
  else shareRemaining counts norm left log toShare

/-- The share of one symbol seen `c` times: rounded down, or up past the threshold when below
8 cells. -/
def shareOf (c step scale : Nat) : Nat :=
  let p := (c * step) >>> scale
  if p < 8 ∧ c * step - (p <<< scale) > Nat.pow 2 (scale - 20) * roundUpThresholds.getD p 0 then p + 1
  else p

/-- The cells of each symbol in a table of `2^log` cells, for `counts` adding up to `total`;
see the module header. -/
def normalizeCounts (counts : Array Nat) (total log : Nat) : Array Int :=
  let scale := 62 - log
  let step := Nat.pow 2 62 / total
  let low := total >>> log
  let (norm, left, largest, _) := (List.range counts.size).foldl
    (fun (acc : Array Int × Int × Nat × Nat) i =>
      let (norm, left, largest, largestShare) := acc
      let c := counts.getD i 0
      if c = 0 then (norm.push 0, left, largest, largestShare)
      else if c ≤ low then (norm.push (-1), left - 1, largest, largestShare)
      else
        let p := shareOf c step scale
        let (largest, largestShare) := if p > largestShare then (i, p) else (largest, largestShare)
        (norm.push p, left - p, largest, largestShare))
    (#[], (Nat.pow 2 log : Nat), 0, 0)
  if -left ≥ norm.getD largest 0 / 2 then normalizeSpread counts total log
  else norm.modify largest (· + left)

/-- The number of zero counts from position `i` on. -/
def zerosFrom (norm : Array Int) (i : Nat) : Nat :=
  ((norm.toList.drop i).takeWhile (· = 0)).length

/-- Writes a run of `z` further zero counts: sixteen one bits per 24, two per 3, then the
remainder in two bits; at most `fuel` fields. -/
def zeroRun (w : BitWriter) : Nat → Nat → BitWriter
  | 0, z => w.add z 2
  | fuel + 1, z =>
    if z ≥ 24 then zeroRun (w.add 0xFFFF 16) fuel (z - 24)
    else if z ≥ 3 then zeroRun (w.add 3 2) fuel (z - 3)
    else w.add z 2

/-- Where the writing of a description stands: the bits so far, the cells still to hand out
(plus one), the threshold and width of the next field, the next symbol, and whether the last
count written was zero. -/
structure Describing where
  w : BitWriter
  remaining : Int
  threshold : Int
  width : Nat
  next : Nat
  afterZero : Bool

/-- Halves the threshold, narrowing the fields, until it is at most the cells remaining; at
most `fuel` times. -/
def narrow (remaining : Int) : Nat → Int × Nat → Int × Nat
  | 0, tw => tw
  | fuel + 1, (threshold, width) =>
    if remaining < threshold then narrow remaining fuel (threshold / 2, width - 1)
    else (threshold, width)

/-- Writes the next count of a description. -/
def describeStep (norm : Array Int) (st : Describing) : Describing :=
  let (w, next) :=
    if st.afterZero then
      let z := zerosFrom norm st.next
      (zeroRun st.w (z + 1) z, st.next + z)
    else (st.w, st.next)
  let count := norm.getD next 0
  let most := 2 * st.threshold - 1 - st.remaining
  let remaining := st.remaining - (if count < 0 then -count else count)
  let field := count + 1
  let field := if field ≥ st.threshold then field + most else field
  let w := w.add field.toNat (if field < most then st.width - 1 else st.width)
  let (threshold, width) := narrow remaining (st.width + 1) (st.threshold, st.width)
  ⟨w, remaining, threshold, width, next + 1, field = 1⟩

/-- Writes counts while cells remain to hand out; at most `fuel` counts. -/
def describeCounts (norm : Array Int) : Nat → Describing → Describing
  | 0, st => st
  | fuel + 1, st => if st.remaining > 1 then describeCounts norm fuel (describeStep norm st) else st

/-- The description of a distribution of `2^log` cells (`log ≥ 5`), padded to whole bytes. -/
def describe (norm : Array Int) (log : Nat) : ByteArray :=
  let size : Int := (Nat.pow 2 log : Nat)
  let st : Describing := ⟨BitWriter.empty.add (log - 5) 4, size + 1, size, log + 1, 0, false⟩
  (describeCounts norm (norm.size + 1) st).w.padded

end Decimation.Codec.Zstd
