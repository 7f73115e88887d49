import Decimation.Codec.Zstd.Huffman
/-!
# Literals and sequences of a compressed block

A compressed block holds a literals section and a sequences section. The literals come raw,
as one repeated byte, or Huffman-coded with a new table or with the table of an earlier block
of the frame, in one stream or four. A sequence says: copy `ll` literals, then copy `ml`
bytes from `offset` bytes back. Literal lengths, match lengths and offsets are coded as a code
from an FSE table plus extra bits; the three tables are the predefined ones, a single symbol,
a new FSE table, or those of the previous block. An offset code of 0 or 1 names one of the
three most recent offsets instead of a new one.

After the last sequence the remaining literals are appended. A block's output is at most
128 KiB.
-/

namespace Decimation.Codec.Zstd

/-- The largest output and content of one block. -/
def maxBlockSize : Nat := 131072

/-- Baseline and extra bits of the literal length codes. -/
def literalLengthCodes : Array (Nat × Nat) :=
  (Array.range 16).map (fun c => (c, 0)) ++
  #[(16, 1), (18, 1), (20, 1), (22, 1), (24, 2), (28, 2), (32, 3), (40, 3), (48, 4), (64, 6),
    (128, 7), (256, 8), (512, 9), (1024, 10), (2048, 11), (4096, 12), (8192, 13), (16384, 14),
    (32768, 15), (65536, 16)]

/-- Baseline and extra bits of the match length codes. -/
def matchLengthCodes : Array (Nat × Nat) :=
  (Array.range 32).map (fun c => (c + 3, 0)) ++
  #[(35, 1), (37, 1), (39, 1), (41, 1), (43, 2), (47, 2), (51, 3), (59, 3), (67, 4), (83, 4),
    (99, 5), (131, 7), (259, 8), (515, 9), (1027, 10), (2051, 11), (4099, 12), (8195, 13),
    (16387, 14), (32771, 15), (65539, 16)]

/-- The three code kinds, in the order their modes are given. -/
inductive CodeKind where
  | literalLength
  | offset
  | matchLength

/-- The largest code of a kind. -/
def CodeKind.maxCode : CodeKind → Nat
  | .literalLength => 35
  | .offset => 30
  | .matchLength => 52

/-- The predefined distribution and accuracy of a kind. -/
def CodeKind.predefined : CodeKind → Array Int × Nat
  | .literalLength =>
    (#[4, 3, 2, 2, 2, 2, 2, 2, 2, 2, 2, 2, 2, 1, 1, 1, 2, 2, 2, 2, 2, 2, 2, 2, 2, 3, 2, 1, 1, 1,
      1, 1, -1, -1, -1, -1], 6)
  | .offset =>
    (#[1, 1, 1, 1, 1, 1, 2, 2, 2, 1, 1, 1, 1, 1, 1, 1, 1, 1, 1, 1, 1, 1, 1, 1, -1, -1, -1, -1,
      -1], 5)
  | .matchLength =>
    (#[1, 4, 3, 2, 2, 2, 2, 2, 2, 1, 1, 1, 1, 1, 1, 1, 1, 1, 1, 1, 1, 1, 1, 1, 1, 1, 1, 1, 1, 1,
      1, 1, 1, 1, 1, 1, 1, 1, 1, 1, 1, 1, 1, 1, 1, 1, -1, -1, -1, -1, -1, -1, -1], 6)

/-- What a frame's earlier blocks leave to later ones. -/
structure Carry where
  huffman : Option HuffTable
  literalLengths : Option FseTable
  offsets : Option FseTable
  matchLengths : Option FseTable
  recent : Nat × Nat × Nat

/-- Nothing carried: the state at the start of a frame. -/
def Carry.initial : Carry := ⟨none, none, none, none, (1, 4, 8)⟩

/-- A literals section over `[pos, stop)`: the literals, the position after the section, and
the Huffman table now current. -/
def readLiterals (data : ByteArray) (pos stop window : Nat) (huff : Option HuffTable) :
    Except ZstdError (ByteArray × Nat × Option HuffTable) := do
  if stop < pos + 2 then throw .blockTooSmall
  let b0 := (byteAt data pos).toNat
  let kind := b0 % 4
  let sizeFormat := (b0 / 4) % 4
  let b1 := (byteAt data (pos + 1)).toNat
  let b2 := (byteAt data (pos + 2)).toNat
  let b3 := (byteAt data (pos + 3)).toNat
  let b4 := (byteAt data (pos + 4)).toNat
  if kind < 2 then
    -- raw or a single repeated byte
    let (regen, hdr) ←
      if sizeFormat % 2 = 0 then pure (b0 / 8, 1)
      else if sizeFormat = 1 then pure (b0 / 16 + b1 * 16, 2)
      else if stop < pos + 3 then throw (.badLiterals "header truncated")
      else pure (b0 / 16 + b1 * 16 + b2 * 4096, 3)
    if regen > window || regen > maxBlockSize then throw .windowTooLarge
    let p := pos + hdr
    if kind = 0 then
      if stop < p + regen then throw (.badLiterals "raw literals truncated")
      return (data.extract p (p + regen), p + regen, huff)
    else
      if stop < p + 1 then throw (.badLiterals "repeated literal missing")
      return (⟨Array.replicate regen (byteAt data p)⟩, p + 1, huff)
  else
    let (regen, comp, hdr, four) ←
      if sizeFormat < 2 then
        if stop < pos + 3 then throw (.badLiterals "header truncated")
        let n := b0 / 16 + b1 * 16 + b2 * 4096
        pure (n % 1024, n / 1024, 3, sizeFormat == 1)
      else if sizeFormat = 2 then
        if stop < pos + 4 then throw (.badLiterals "header truncated")
        let n := b0 / 16 + b1 * 16 + b2 * 4096 + b3 * 1048576
        pure (n % 16384, n / 16384, 4, true)
      else
        if stop < pos + 5 then throw (.badLiterals "header truncated")
        let n := b0 / 16 + b1 * 16 + b2 * 4096 + b3 * 1048576 + b4 * 268435456
        pure (n % 262144, n / 262144, 5, true)
    if regen > window || regen > maxBlockSize then throw .windowTooLarge
    let p := pos + hdr
    if stop < p + comp then throw (.badLiterals "compressed literals truncated")
    let (table, streams) ←
      if kind = 3 then
        match huff with
        | some t => pure (t, p)
        | none => throw (.badLiterals "no earlier Huffman table")
      else readHuffTable data p (p + comp)
    let lits ←
      if four then decodeFour table data streams (p + comp) regen
      else decodeOne table data streams (p + comp) regen
    return (lits, p + comp, some table)

/-- One sequence: literals to copy, match length, match offset. -/
structure Sequence where
  literals : Nat
  matchLen : Nat
  offset : Nat

/-- The table a mode selects; the position after what it read. -/
def readMode (data : ByteArray) (pos stop : Nat) (kind : CodeKind) (mode : Nat)
    (previous : Option FseTable) : Except ZstdError (FseTable × Nat) := do
  match mode with
  | 0 =>
    let (counts, log) := kind.predefined
    let t ← buildTable counts log false
    return (t, pos)
  | 1 =>
    if stop ≤ pos then throw .blockTooSmall
    let v := (byteAt data pos).toNat
    if v > kind.maxCode then throw (.badSequences "repeated code out of range")
    return (FseTable.constant v, pos + 1)
  | 2 =>
    let (log, counts, used) ← readDistribution data pos stop kind.maxCode 9
    let t ← buildTable counts log false
    return (t, pos + used)
  | _ =>
    match previous with
    | some t => return (t, pos)
    | none => throw (.badSequences "no earlier table to repeat")

/-- The offset a sequence uses and the recent offsets after it. -/
def resolveOffset (code value ll : Nat) (recent : Nat × Nat × Nat) : Nat × (Nat × Nat × Nat) :=
  let (r1, r2, r3) := recent
  if code > 1 then (value - 3, (value - 3, r1, r2))
  else
    let k := value - 1 + (if ll = 0 then 1 else 0)
    if k = 0 then (r1, recent)
    else
      let t := if k = 3 then r1 - 1 else if k = 1 then r2 else r3
      let t := if t = 0 then 1 else t
      if k = 1 then (t, (t, r1, r3)) else (t, (t, r1, r2))

/-- Decodes `n` sequences from the backward stream with the three tables. -/
def readSequences (ll ml of : FseTable) : Nat → Backward → Nat × Nat × Nat → Nat × Nat × Nat →
    Array Sequence → Array Sequence × Backward × (Nat × Nat × Nat)
  | 0, r, _, recent, acc => (acc, r, recent)
  | n + 1, r, (sl, so, sm), recent, acc =>
    let cl := ll.cell sl
    let co := of.cell so
    let cm := ml.cell sm
    let (ofBits, r) := r.read co.symbol
    let ofValue := Nat.pow 2 co.symbol + ofBits
    let (mlBase, mlExtra) := matchLengthCodes.getD cm.symbol (0, 0)
    let (mlBits, r) := r.read mlExtra
    let (llBase, llExtra) := literalLengthCodes.getD cl.symbol (0, 0)
    let (llBits, r) := r.read llExtra
    let litLen := llBase + llBits
    let (offset, recent) := resolveOffset co.symbol ofValue litLen recent
    let acc := acc.push ⟨litLen, mlBase + mlBits, offset⟩
    if n = 0 then (acc, r, recent)
    else
      let (bl, r) := r.read cl.bits
      let (bm, r) := r.read cm.bits
      let (bo, r) := r.read co.bits
      readSequences ll ml of n r (cl.base + bl, co.base + bo, cm.base + bm) recent acc

/-- Carries out sequences: `out` holds the frame's output so far, of which the block began at
`start`. A block decodes to at most 128 KiB and at most the window. -/
def execute (seqs : Array Sequence) (lits : ByteArray) (out : ByteArray) (start window : Nat) :
    Except ZstdError ByteArray := do
  let most := min maxBlockSize window
  let mut out := out
  let mut litPos := 0
  for s in seqs do
    if s.literals > lits.size - litPos then throw (.badSequences "too few literals")
    if out.size + s.literals + s.matchLen - start > most then throw .blockTooLarge
    out := appendSlice out lits litPos s.literals
    litPos := litPos + s.literals
    if s.offset > out.size || s.offset > window || s.offset = 0 then
      throw (.badSequences "offset before the start of the output")
    out := appendMatch out s.offset s.matchLen
  if out.size + (lits.size - litPos) - start > most then throw .blockTooLarge
  return appendSlice out lits litPos (lits.size - litPos)

/-- Decodes a compressed block `[pos, stop)` onto `out` (the frame's output so far). -/
def decodeCompressed (data : ByteArray) (pos stop window : Nat) (carry : Carry)
    (out : ByteArray) : Except ZstdError (ByteArray × Carry) := do
  let (lits, p, huff) ← readLiterals data pos stop window carry.huffman
  let carry := { carry with huffman := huff }
  if stop ≤ p then throw .blockTooSmall
  let b0 := (byteAt data p).toNat
  let (n, p) ←
    if b0 < 128 then pure (b0, p + 1)
    else if b0 < 255 then
      if stop < p + 2 then throw .blockTooSmall
      pure ((b0 - 128) * 256 + (byteAt data (p + 1)).toNat, p + 2)
    else
      if stop < p + 3 then throw .blockTooSmall
      pure (0x7F00 + (byteAt data (p + 1)).toNat + (byteAt data (p + 2)).toNat * 256, p + 3)
  if n = 0 then
    if p != stop then throw (.badSequences "bytes after an empty sequences section")
    if lits.size > maxBlockSize then throw .blockTooLarge
    return (out ++ lits, carry)
  if stop ≤ p then throw .blockTooSmall
  let modes := (byteAt data p).toNat
  if modes % 4 != 0 then throw (.badSequences "reserved mode bits set")
  let (llT, p) ← readMode data (p + 1) stop .literalLength (modes / 64) carry.literalLengths
  let (ofT, p) ← readMode data p stop .offset ((modes / 16) % 4) carry.offsets
  let (mlT, p) ← readMode data p stop .matchLength ((modes / 4) % 4) carry.matchLengths
  let r ← Backward.init data p stop
  let (sl, r) := r.read llT.log
  let (so, r) := r.read ofT.log
  let (sm, r) := r.read mlT.log
  let (seqs, r, recent) := readSequences llT mlT ofT n r (sl, so, sm) carry.recent #[]
  if r.left != 0 then throw (.badBitstream "sequence bits not used up exactly")
  let out ← execute seqs lits out out.size window
  let next : Carry := ⟨carry.huffman, some llT, some ofT, some mlT, recent⟩
  return (out, next)

end Decimation.Codec.Zstd
