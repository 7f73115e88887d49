import Decimation.Codec.Zstd.Frame
import Decimation.Codec.Zstd.HuffmanCode
import Decimation.Codec.Zstd.MatchFinder
/-!
# Compressing zstd frames

A frame holds the input in one block when it fits in 128 KiB (else in blocks of 128 KiB). A
block is compressed from the sequences the finder gives (`findSequences`) and written
as it is when that does not pay: with no sequence, when the matches save fewer than
`16 + size / 64` bytes, or when the compressed block would not be smaller. A block that is a
single byte repeated (one sequence of offset 1 after at most one literal) is written as that
byte and a count.

A compressed block has two sections.

* Literals: Huffman coded (`huffmanLiterals`) when there are more than sixteen, in four
  streams from 1024 on, unless the code, with its header, would not save at least three bytes;
  otherwise as they are, or as one repeated byte.
* Sequences: their number, a byte of modes, then each of the three code streams (literal
  lengths, offsets, match lengths) described as one repeated code, by the predefined
  distribution, or by a distribution of its own, whichever the estimate says is shortest
  (a new description must beat the predefined one by a margin); last, the bit stream of the
  sequences, the last sequence first.

The frame header gives the content size in the fewest bytes that hold it, and is a single
segment (no window size) for inputs from 1025 bytes to 8 MiB; the window is 8 MiB and no
checksum is written.
-/

namespace Decimation.Codec.Zstd

/-- The code of a value among codes with these baselines: the last whose baseline is at most
the value. -/
def codeOf (codes : Array (Nat × Nat)) (v : Nat) : Nat :=
  ((List.range codes.size).filter fun c => (codes.getD c (0, 0)).1 ≤ v).getLast?.getD 0

/-- A sequence's three codes and the extra bits after each code: value and width. -/
structure SequenceCodes where
  ll : Nat
  of : Nat
  ml : Nat
  llExtra : Nat × Nat
  ofExtra : Nat × Nat
  mlExtra : Nat × Nat

/-- The codes of a sequence. -/
def codesOf (s : EncodedSequence) : SequenceCodes :=
  let ll := codeOf literalLengthCodes s.literals
  let ml := codeOf matchLengthCodes s.matchLen
  let of := Nat.log2 s.offsetValue
  let (llBase, llBits) := literalLengthCodes.getD ll (0, 0)
  let (mlBase, mlBits) := matchLengthCodes.getD ml (0, 0)
  ⟨ll, of, ml, (s.literals - llBase, llBits), (s.offsetValue - Nat.pow 2 of, of), (s.matchLen - mlBase, mlBits)⟩

/-- How a code stream is described. -/
inductive CodeTable where
  /-- one code throughout -/
  | repeated (code : Nat)
  /-- the predefined distribution -/
  | predefined (c : StateCoder)
  /-- a distribution of its own, written in the block -/
  | described (c : StateCoder)

namespace CodeTable

/-- The mode of a description, as the modes byte gives it. -/
def mode : CodeTable → Nat
  | repeated _ => 1
  | predefined _ => 0
  | described _ => 2

/-- What the block holds to describe it. -/
def header : CodeTable → ByteArray
  | repeated c => ⟨#[c.toUInt8]⟩
  | predefined _ => ByteArray.empty
  | described c => describe c.norm c.log

/-- The state a stream starts from for its first code. -/
def start : CodeTable → Nat → Nat
  | repeated _, _ => 0
  | predefined c, s | described c, s => c.start s

/-- Codes `s` from state `x` onto a stream. -/
def put : CodeTable → BitWriter → Nat → Nat → BitWriter × Nat
  | repeated _, w, _, _ => (w, 0)
  | predefined c, w, x, s | described c, w, x, s => c.put w x s

/-- Writes the final state. -/
def finish : CodeTable → BitWriter → Nat → BitWriter
  | repeated _, w, _ => w
  | predefined c, w, x | described c, w, x => w.add x c.log

end CodeTable

/-- The table for `n` codes with histogram `hist` and the predefined distribution `pre`: one
code throughout, else predefined unless a distribution of its own is estimated shorter even
after its header and a margin of a sixteenth (plus 32 bits). -/
def chooseTable (hist : Array Nat) (n : Nat) (pre : Array Int × Nat) : CodeTable :=
  match (List.range hist.size).find? fun c => hist.getD c 0 = n with
  | some c => .repeated c
  | none =>
    let maxSymbol := hist.size - 1
    let log := accuracyFor 8 2 8 n maxSymbol
    let own := StateCoder.build (normalizeCounts hist n log) log
    let predefined := StateCoder.build pre.1 pre.2
    let ownSize := (own.approxSize hist).getD (Nat.pow 2 32 - 1) + ((hist.size * log) / 8 + 3) * 8
    let ownSize := ownSize + (ownSize + 256) / 16
    if (predefined.approxSize hist).getD (Nat.pow 2 32 - 1) ≤ ownSize then .predefined predefined
    else .described own

/-- The histogram of codes. -/
def histogram (codes : Array Nat) : Array Nat :=
  codes.foldl (fun h c => (if c < h.size then h else h ++ Array.replicate (c + 1 - h.size) 0).modify c (· + 1)) #[]

/-- The number of sequences as the section starts with it. -/
def sequenceCount (n : Nat) : ByteArray :=
  if n < 128 then ⟨#[n.toUInt8]⟩
  else if n < 0x7F00 then ⟨#[(128 + n / 256).toUInt8, n.toUInt8]⟩
  else ⟨#[255, (n - 0x7F00).toUInt8, ((n - 0x7F00) / 256).toUInt8]⟩

/-- The sequences section of a block (at least one sequence). -/
def sequenceSection (seqs : Array EncodedSequence) : ByteArray :=
  let n := seqs.size
  let codes := seqs.map codesOf
  let llT := chooseTable (histogram (codes.map (·.ll))) n CodeKind.literalLength.predefined
  let ofT := chooseTable (histogram (codes.map (·.of))) n CodeKind.offset.predefined
  let mlT := chooseTable (histogram (codes.map (·.ml))) n CodeKind.matchLength.predefined
  let modes := (llT.mode * 64 + ofT.mode * 16 + mlT.mode * 4).toUInt8
  let lastCodes := codes.getD (n - 1) ⟨0, 0, 0, (0, 0), (0, 0), (0, 0)⟩
  let addExtras (w : BitWriter) (c : SequenceCodes) : BitWriter :=
    ((w.add c.llExtra.1 c.llExtra.2).add c.mlExtra.1 c.mlExtra.2).add c.ofExtra.1 c.ofExtra.2
  let w := addExtras BitWriter.empty lastCodes
  let init := (llT.start lastCodes.ll, ofT.start lastCodes.of, mlT.start lastCodes.ml)
  let (w, sll, sof, sml) := (List.range (n - 1)).foldl
    (fun (acc : BitWriter × Nat × Nat × Nat) k =>
      let (w, sll, sof, sml) := acc
      let c := codes.getD (n - 2 - k) ⟨0, 0, 0, (0, 0), (0, 0), (0, 0)⟩
      let (w, sof) := ofT.put w sof c.of
      let (w, sml) := mlT.put w sml c.ml
      let (w, sll) := llT.put w sll c.ll
      (addExtras w c, sll, sof, sml))
    (w, init)
  let w := llT.finish (ofT.finish (mlT.finish w sml) sof) sll
  sequenceCount n ++ ⟨#[modes]⟩ ++ llT.header ++ ofT.header ++ mlT.header ++ w.closed

/-- The header of literals written as they are (`kind` 0) or repeated (`kind` 1). -/
def plainLiteralsHeader (kind n : Nat) : ByteArray :=
  if n < 16 then ⟨#[(kind + n * 8).toUInt8]⟩
  else if n < 2048 then
    let v := kind + 4 + n * 16
    ⟨#[v.toUInt8, (v / 256).toUInt8]⟩
  else
    let v := kind + 12 + n * 16
    ⟨#[v.toUInt8, (v / 256).toUInt8, (v / 65536).toUInt8]⟩

/-- The header of Huffman-coded literals: `n` literals in `size` bytes, one stream or four. -/
def codedLiteralsHeader (n size : Nat) (four : Bool) : ByteArray :=
  if n < 1024 ∧ size < 1024 then BitWriter.lowBytes (2 + (if four then 4 else 0) + n * 16 + size * Nat.pow 2 14) 3
  else if n < 16384 ∧ size < 16384 then BitWriter.lowBytes (2 + 8 + n * 16 + size * Nat.pow 2 18) 4
  else BitWriter.lowBytes (2 + 12 + n * 16 + size * Nat.pow 2 22) 5

/-- The literals section of a block; see the module header. -/
def literalSection (lits : ByteArray) : ByteArray :=
  let n := lits.size
  let coding : LiteralCoding :=
    if n ≥ 1024 then huffmanLiterals lits true
    else if n > 16 then huffmanLiterals lits false
    else .raw
  let coding : LiteralCoding := match coding with
    | .huffman out four =>
      if out.size + 5 > n ∧ out.size + (codedLiteralsHeader n out.size four).size ≥ n + 3 then .raw
      else coding
    | c => c
  match coding with
  | .raw => plainLiteralsHeader 0 n ++ lits
  | .repeated b => plainLiteralsHeader 1 n ++ ⟨#[b]⟩
  | .huffman out four => codedLiteralsHeader n out.size four ++ out

/-- A block holding `src`, flagged last or not; see the module header. -/
def compressBlock (src : ByteArray) (last : Bool) : ByteArray :=
  let n := src.size
  let (seqs, lits) := findSequences src
  let plain := ⟨(blockHeader last 0 n).toArray⟩ ++ src
  let single := seqs.size = 1 ∧ lits.size ≤ 1 ∧
    (seqs.getD 0 ⟨0, 0, 0⟩).literals = lits.size ∧ (seqs.getD 0 ⟨0, 0, 0⟩).offsetValue = 4
  if seqs.isEmpty then plain
  else if single then ⟨(blockHeader last 1 n).toArray.push (byteAt src 0)⟩
  else if (n : Int) - lits.size - (n / 64 : Nat) < 16 then plain
  else
    let body := literalSection lits ++ sequenceSection seqs
    if body.size ≥ n then plain else ⟨(blockHeader last 2 body.size).toArray⟩ ++ body

/-- The blocks holding `data` from `pos` on, 128 KiB each. -/
def compressBlocks (data : ByteArray) (pos : Nat) : ByteArray :=
  if pos + maxBlockSize < data.size then
    compressBlock (data.extract pos (pos + maxBlockSize)) false ++ compressBlocks data (pos + maxBlockSize)
  else compressBlock (data.extract pos data.size) true
termination_by data.size - pos
decreasing_by
  have : 0 < maxBlockSize := Nat.two_pow_pos 17
  omega

/-- The frame header for `n` bytes of content; see the module header. -/
def frameHeaderFor (n : Nat) : ByteArray :=
  let single := 1024 < n ∧ n ≤ Nat.pow 2 23
  let sizeCode := (if n ≥ 256 then 1 else 0) + (if n ≥ 65792 then 1 else 0) +
    (if n ≥ Nat.pow 2 32 - 1 then 1 else 0)
  let descriptor := sizeCode * 64 + (if single then 32 else 0)
  let window : List UInt8 := if single then [] else [(13 * 8 : Nat).toUInt8]
  let size := match sizeCode with
    | 0 => if single then BitWriter.lowBytes n 1 else ByteArray.empty
    | 1 => BitWriter.lowBytes (n - 256) 2
    | 2 => BitWriter.lowBytes n 4
    | _ => BitWriter.lowBytes n 8
  ⟨#[0x28, 0xB5, 0x2F, 0xFD, descriptor.toUInt8] ++ window.toArray⟩ ++ size

/-- A zstd frame holding `data`; nothing for no data. -/
def compressFrame (data : ByteArray) : ByteArray :=
  if data.size = 0 then ByteArray.empty else frameHeaderFor data.size ++ compressBlocks data 0

end Decimation.Codec.Zstd
