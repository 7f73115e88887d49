import Decimation.Codec.Zstd.StateCoder
/-!
# Building Huffman codes for literals

`buildHuffman` builds a Huffman code for byte counts: the symbols are ranked by decreasing
count (ties by symbol), the two lightest nodes are joined until one tree is left (a leaf
losing ties against a joined node), and a symbol's code length is its depth. Codes longer
than the limit are then cut to it (`limitLengths`): the cut adds cost, which is repaid by
lengthening the codes of the cheapest symbols one rank at a time, and any overshoot is
given back by shortening codes at the limit.

Code values are canonical: the longest codes come first, and within a length the symbols
are in order. A code is described by the weights `limit + 1 - length` of all symbols but the
last, compressed with a table of states when that is shorter than half the symbols, else
four bits each.

`huffmanLiterals` then chooses how literals are coded: as they are, as one repeated byte, or
Huffman coded in one stream or four, whichever the rules below allow.
-/

namespace Decimation.Codec.Zstd

/-- The symbols below `counts.size` by decreasing count, ties by symbol. -/
def rankSymbols (counts : Array Nat) : Array Nat :=
  ((List.range counts.size).mergeSort fun a b => counts.getD a 0 ≥ counts.getD b 0).toArray

/-- Joining nodes: counts by node (shifted by one, a barrier in front), parents, the lightest
leaf and joined node not yet used, and the next node to make. -/
structure Joining where
  weight : Array Nat
  parent : Array Nat
  lowLeaf : Int
  lowNode : Nat
  next : Nat

/-- The weight of node `k` (the barrier for `-1`). -/
def Joining.at (j : Joining) (k : Int) : Nat := j.weight.getD (k + 1).toNat 0

/-- Takes the lighter of the next leaf and the next joined node, the node on a tie. -/
def Joining.take (j : Joining) : Joining × Nat :=
  if j.at j.lowLeaf < j.at j.lowNode then
    ({ j with lowLeaf := j.lowLeaf - 1 }, j.lowLeaf.toNat)
  else ({ j with lowNode := j.lowNode + 1 }, j.lowNode)

/-- Joins the two lightest nodes into a new one. -/
def Joining.join (j : Joining) : Joining :=
  let (j, a) := j.take
  let (j, b) := j.take
  let w := j.at a + j.at b
  { j with
    weight := j.weight.setIfInBounds (j.next + 1) w
    parent := (j.parent.setIfInBounds a j.next).setIfInBounds b j.next
    next := j.next + 1 }

/-- The depths of the ranked leaves `0..last` (at least two) of a Huffman tree over the
ranked counts `ranked` of `n` symbols. -/
def treeDepths (ranked : Array Nat) (last : Nat) : Array Nat :=
  let n := ranked.size
  let root := n + last - 1
  let weight := (#[Nat.pow 2 31] ++ ranked ++ Array.replicate n (Nat.pow 2 30)).setIfInBounds (n + 1)
    (ranked.getD last 0 + ranked.getD (last - 1) 0)
  let parent := ((Array.replicate (2 * n) 0).setIfInBounds last n).setIfInBounds (last - 1) n
  let j : Joining := ⟨weight, parent, (last : Int) - 2, n, n + 1⟩
  let j := (List.range (root - n)).foldl (fun j _ => j.join) j
  let depth := (List.range (root - n)).foldl
    (fun (d : Array Nat) k =>
      let node := root - 1 - k
      d.setIfInBounds node (d.getD (j.parent.getD node 0) 0 + 1))
    (Array.replicate (2 * n) 0)
  (Array.range (last + 1)).map fun k => depth.getD (j.parent.getD k 0) 0 + 1

/-- Where cutting codes to the limit stands: the lengths by rank, the cost still to repay
(in units of the limit's codes), and for each number of bits below the limit the last rank
with that length, if any. -/
structure Cutting where
  bits : Array Nat
  cost : Int
  rankLast : Array (Option Nat)

/-- The number of bits by which to lengthen next: the smallest whose last symbol at that
distance below the limit is cheaper than two at one less, from `log2 cost + 1` down. -/
def chooseDecrease (ranked : Array Nat) (rl : Array (Option Nat)) : Nat → Nat → Nat
  | 0, k => k
  | fuel + 1, k =>
    if k ≤ 1 then k
    else
      match rl.getD k none, rl.getD (k - 1) none with
      | none, _ => chooseDecrease ranked rl fuel (k - 1)
      | some _, none => k
      | some hi, some lo =>
        if ranked.getD hi 0 ≤ 2 * ranked.getD lo 0 then k
        else chooseDecrease ranked rl fuel (k - 1)

/-- The first number of bits from `k` on (up to 11) that has a symbol. -/
def nextWithSymbol (rl : Array (Option Nat)) : Nat → Nat → Nat
  | 0, k => k
  | fuel + 1, k =>
    if k ≤ 11 ∧ (rl.getD k none).isNone then nextWithSymbol rl fuel (k + 1) else k

/-- Repays the cost by lengthening codes; at most `fuel` steps. -/
def repay (ranked : Array Nat) (limit : Nat) : Nat → Cutting → Cutting
  | 0, c => c
  | fuel + 1, c =>
    if c.cost ≤ 0 then c
    else
      let k := chooseDecrease ranked c.rankLast 13 (Nat.log2 c.cost.toNat + 1)
      let k := nextWithSymbol c.rankLast 13 k
      let cost := c.cost - (Nat.pow 2 (k - 1) : Nat)
      let rl := c.rankLast
      let rl := if (rl.getD (k - 1) none).isNone then rl.setIfInBounds (k - 1) (rl.getD k none) else rl
      let pos := (rl.getD k none).getD 0
      let bits := c.bits.modify pos (· + 1)
      let rl :=
        if pos = 0 then rl.setIfInBounds k none
        else if bits.getD (pos - 1) 0 + k = limit then rl.setIfInBounds k (some (pos - 1))
        else rl.setIfInBounds k none
      repay ranked limit fuel ⟨bits, cost, rl⟩

/-- The last rank at or before `n` whose length is below `limit`. -/
def lastBelow (bits : Array Nat) (limit : Nat) : Nat → Nat → Nat
  | 0, n => n
  | fuel + 1, n => if bits.getD n 0 = limit ∧ n > 0 then lastBelow bits limit fuel (n - 1) else n

/-- Gives back an overshoot of the repayment by shortening codes; at most `fuel` steps. -/
def giveBack (limit : Nat) (n : Nat) : Nat → Cutting → Cutting
  | 0, c => c
  | fuel + 1, c =>
    if c.cost ≥ 0 then c
    else
      match c.rankLast.getD 1 none with
      | none =>
        let n := lastBelow c.bits limit c.bits.size n
        giveBack limit n fuel
          ⟨c.bits.modify (n + 1) (· - 1), c.cost + 1, c.rankLast.setIfInBounds 1 (some (n + 1))⟩
      | some r =>
        giveBack limit n fuel
          ⟨c.bits.modify (r + 1) (· - 1), c.cost + 1, c.rankLast.setIfInBounds 1 (some (r + 1))⟩

/-- Cuts the codes longer than `limit` from rank `n` down to it, adding up what that costs in
units of codes of length `largest`; at most `fuel` ranks. -/
def cutTail (limit largest : Nat) : Nat → Array Nat × Int × Nat → Array Nat × Int × Nat
  | 0, acc => acc
  | fuel + 1, (bits, cost, n) =>
    let b := bits.getD n 0
    if b > limit then
      let cost := cost + ((Nat.pow 2 (largest - limit) - Nat.pow 2 (largest - b) : Nat) : Int)
      let bits := bits.setIfInBounds n limit
      if n = 0 then (bits, cost, 0) else cutTail limit largest fuel (bits, cost, n - 1)
    else (bits, cost, n)

/-- The lengths by rank cut to at most `limit`, and the longest length. -/
def limitLengths (ranked : Array Nat) (bits : Array Nat) (limit : Nat) : Array Nat × Nat :=
  let last := bits.size - 1
  let largest := bits.getD last 0
  if largest ≤ limit then (bits, largest)
  else
    let (bits, cost, n) := cutTail limit largest bits.size (bits, 0, last)
    let n := lastBelow bits limit bits.size n
    let cost := cost / (Nat.pow 2 (largest - limit) : Nat)
    let rl := (List.range (n + 1)).foldl
      (fun (acc : Array (Option Nat) × Nat) k =>
        let pos := n - k
        let (rl, current) := acc
        let b := bits.getD pos 0
        if b ≥ current then acc else (rl.setIfInBounds (limit - b) (some pos), b))
      (Array.replicate 13 none, limit)
    let c := repay ranked limit (bits.size * (limit + 1) * 4 + 16) ⟨bits, cost, rl.1⟩
    let c := giveBack limit n (bits.size * 4 + 16) c
    (c.bits, limit)

/-- A Huffman code: the length and value of each symbol's code (length `0` for a symbol not
used), and the longest length. -/
structure HuffmanCode where
  lengths : Array Nat
  values : Array Nat
  maxLength : Nat

/-- Canonical values for code lengths: longest codes first, symbols in order within a
length. -/
def canonicalValues (lengths : Array Nat) (maxLength : Nat) : Array Nat :=
  let perLength := lengths.foldl (fun acc l => acc.modify l (· + 1)) (Array.replicate (maxLength + 1) 0)
  let (firsts, _) := (List.range maxLength).foldl
    (fun (acc : Array Nat × Nat) k =>
      let l := maxLength - k
      let (firsts, low) := acc
      (firsts.setIfInBounds l low, (low + perLength.getD l 0) / 2))
    (Array.replicate (maxLength + 1) 0, 0)
  (lengths.foldl (fun (acc : Array Nat × Array Nat) l =>
    let (vals, next) := acc
    (vals.push (next.getD l 0), next.modify l (· + 1))) (#[], firsts)).1

/-- The Huffman code for byte counts (two symbols or more seen), no code longer than
`limit`. -/
def buildHuffman (counts : Array Nat) (limit : Nat) : HuffmanCode :=
  let order := rankSymbols counts
  let ranked := order.map fun s => counts.getD s 0
  let last := ((List.range ranked.size).filter fun k => ranked.getD k 0 > 0).getLast?.getD 0
  let (bits, maxLength) := limitLengths ranked (treeDepths ranked last) limit
  let lengths := (List.range (last + 1)).foldl
    (fun l k => l.setIfInBounds (order.getD k 0) (bits.getD k 0)) (Array.replicate counts.size 0)
  ⟨lengths, canonicalValues lengths maxLength, maxLength⟩

/-- The description of a code: its weights compressed, or four bits each; none when neither
fits. -/
def HuffmanCode.describe (h : HuffmanCode) : Option ByteArray :=
  let maxSymbol := h.lengths.size - 1
  let weights := (h.lengths.extract 0 maxSymbol).map fun l =>
    if l = 0 then 0 else h.maxLength + 1 - l
  let compressed :=
    if maxSymbol ≥ 2 then
      match compressSmall weights 6 with
      | some b => if b.size < h.lengths.size / 2 then some (ByteArray.mk #[b.size.toUInt8] ++ b) else none
      | none => none
    else none
  match compressed with
  | some b => some b
  | none =>
    if maxSymbol > 128 then none
    else
      let ws := weights.push 0
      some ⟨#[(127 + maxSymbol).toUInt8] ++ (Array.range ((maxSymbol + 1) / 2)).map fun i =>
        (ws.getD (2 * i) 0 * 16 + ws.getD (2 * i + 1) 0).toUInt8⟩

/-- One stream of literals, written last byte first so that it reads first byte first. -/
def HuffmanCode.stream (h : HuffmanCode) (lits : ByteArray) : ByteArray :=
  (lits.toList.reverse.foldl (fun w b =>
    w.add (h.values.getD b.toNat 0) (h.lengths.getD b.toNat 0)) BitWriter.empty).closed

/-- Four streams of literals (quarters rounded up, the last taking the rest) after a table of
the sizes of the first three. -/
def HuffmanCode.fourStreams (h : HuffmanCode) (lits : ByteArray) : ByteArray :=
  let q := (lits.size + 3) / 4
  let parts := (List.range 4).map fun i => h.stream (lits.extract (i * q) (min lits.size ((i + 1) * q)))
  let sizes := (parts.take 3).flatMap fun p => [p.size.toUInt8, (p.size / 256).toUInt8]
  parts.foldl (· ++ ·) ⟨sizes.toArray⟩

/-- How literals are coded. -/
inductive LiteralCoding where
  /-- as they are -/
  | raw
  /-- one byte repeated -/
  | repeated (b : UInt8)
  /-- Huffman coded: the description of the code and the streams, and whether four -/
  | huffman (bytes : ByteArray) (four : Bool)

/-- How literals are coded when Huffman coding is tried: one byte throughout is repeated (unless
it is the only literal); a code pays only when some byte is seen twice and at least once per 128
literals, and when description and streams take fewer than fifteen sixteenths of the
literals; four streams need twelve literals. -/
def huffmanLiterals (lits : ByteArray) (four : Bool) : LiteralCoding :=
  let n := lits.size
  let counts := lits.foldl (fun acc b => acc.modify b.toNat (· + 1)) (Array.replicate 256 0)
  let maxSymbol := ((List.range 256).filter fun s => counts.getD s 0 > 0).getLast?.getD 0
  let counts := counts.extract 0 (maxSymbol + 1)
  let largest := counts.foldl max 0
  if largest ≥ n then (if n = 1 then .raw else .repeated (byteAt lits 0))
  else if largest = 1 ∨ largest < n >>> 7 then .raw
  else
    let h := buildHuffman counts (accuracyFor 11 1 11 n maxSymbol)
    match h.describe with
    | none => .raw
    | some table =>
      if four ∧ n < 12 then .raw
      else
        let out := table ++ (if four then h.fourStreams lits else h.stream lits)
        if out.size ≥ n - n >>> 4 then .raw else .huffman out four

end Decimation.Codec.Zstd
