import Decimation.Codec.Zstd.Sequences
import Decimation.Hash.XxHash64
/-!
# Zstd frames

A zstd stream is a run of frames. A frame starts with the magic `28 B5 2F FD` and a header
(descriptor byte, window size unless the frame is a single segment, dictionary id, content
size), then blocks of three kinds (raw, one repeated byte, compressed), each with a three-byte
header holding a last-block flag, the kind and a size, and optionally a four-byte checksum
(the low half of the content's xxHash64). A frame with magic `5? 2A 4D 18` is skipped by its
stated length.

Decoding concatenates the frames' contents. The stream ends after the last frame; anything
that breaks the format is refused, stray bytes after a frame included: an unknown magic, a
frame header cut short, a reserved bit or block kind, a dictionary, a single segment stating
more than 64 GiB (the size that means "unknown" included), a block cut short, a block
larger than 128 KiB or the window (stored or decoded), a content size or checksum that does not
match. Earlier blocks of a
frame lend their tables and recent offsets to later ones; frames share nothing.
-/

namespace Decimation.Codec.Zstd

/-- The largest window accepted. -/
def maxWindow : Nat := Nat.pow 2 29

/-- The largest content a frame may state: 64 GiB. -/
def maxDecoded : Nat := Nat.pow 2 36

/-- What a frame header says. -/
structure FrameHeader where
  window : Nat
  contentSize : Option Nat
  checksum : Bool

/-- Reads a frame header after the magic at `pos`, and the position after it. -/
def readFrameHeader (data : ByteArray) (pos : Nat) : Except ZstdError (FrameHeader × Nat) := do
  if data.size ≤ pos then throw (.truncated "frame header")
  let fhd := (byteAt data pos).toNat
  let single := (fhd / 32) % 2 = 1
  if (fhd / 8) % 2 = 1 then throw .reservedBit
  let mut p := pos + 1
  let mut window := 0
  if !single then
    if data.size ≤ p then throw (.truncated "window descriptor")
    let wd := (byteAt data p).toNat
    let base := Nat.pow 2 (10 + wd / 8)
    window := base + base / 8 * (wd % 8)
    p := p + 1
  let dictBytes := [0, 1, 2, 4].getD (fhd % 4) 0
  if data.size < p + dictBytes then throw (.truncated "dictionary id")
  let dict := leAt data p dictBytes
  p := p + dictBytes
  let fcsBytes := if fhd / 64 = 0 then (if single then 1 else 0) else Nat.pow 2 (fhd / 64)
  if data.size < p + fcsBytes then throw (.truncated "content size")
  let fcsRaw := leAt data p fcsBytes
  p := p + fcsBytes
  let fcs := if fcsBytes = 2 then fcsRaw + 256 else fcsRaw
  let contentSize : Option Nat :=
    if fcsBytes = 0 || fcs = Nat.pow 2 64 - 1 then none else some fcs
  if window > maxWindow then throw .windowTooLarge
  -- a single segment's window is its stated size, even the one that means "unknown"
  if single then
    window := max fcs 1024
    if window > maxDecoded then throw .windowTooLarge
  if window < 1024 then throw .windowTooSmall
  if window > maxWindow then throw .windowTooLarge
  if dict ≠ 0 then throw .unknownDictionary
  return (⟨window, contentSize, (fhd / 4) % 2 = 1⟩, p)

/-- Decodes blocks from `pos` until the last one; at most `fuel` of them. Returns the frame's
content and the position after its last block. -/
def readBlocks (data : ByteArray) (h : FrameHeader) :
    Nat → Nat → Carry → ByteArray → Except ZstdError (ByteArray × Nat)
  | 0, _, _, _ => .error (.truncated "block header")
  | fuel + 1, pos, carry, out => do
    if data.size < pos + 3 then throw (.truncated "block header")
    let bh := leAt data pos 3
    let last := bh % 2 = 1
    let kind := (bh / 2) % 4
    let size := bh / 8
    let p := pos + 3
    let (out, carry, p) ←
      match kind with
      | 0 =>
        if size > maxBlockSize || size > h.window then throw .blockTooLarge
        if data.size < p + size then throw (.truncated "raw block")
        pure (appendSlice out data p size, carry, p + size)
      | 1 =>
        if size > maxBlockSize || size > h.window then throw .blockTooLarge
        if data.size < p + 1 then throw (.truncated "repeated byte block")
        pure (out ++ ⟨Array.replicate size (byteAt data p)⟩, carry, p + 1)
      | 2 =>
        if size > maxBlockSize || size > h.window then throw .blockTooLarge
        if size < 2 then throw .blockTooSmall
        if data.size < p + size then throw (.truncated "compressed block")
        let (out, carry) ← decodeCompressed data p (p + size) h.window carry out
        pure (out, carry, p + size)
      | _ => throw .reservedBlockType
    if last then return (out, p)
    if let some n := h.contentSize then
      if out.size > n then throw .contentSizeMismatch
    readBlocks data h fuel p carry out

/-- Decodes the frames from `pos` on, appending their contents to `out`; at most `fuel`
frames. -/
def readFrames (data : ByteArray) : Nat → Nat → ByteArray → Except ZstdError ByteArray
  | 0, _, out => .ok out
  | fuel + 1, pos, out => do
    if data.size ≤ pos then return out
    if data.size < pos + 4 then throw (.truncated "frame magic")
    let magic := leAt data pos 4
    if magic / 16 = 0x184D2A5 then
      if data.size < pos + 8 then throw (.truncated "skippable frame size")
      let n := leAt data (pos + 4) 4
      if data.size < pos + 8 + n then throw (.truncated "skippable frame")
      readFrames data fuel (pos + 8 + n) out
    else
      if magic ≠ 0xFD2FB528 then throw .badMagic
      let (h, p) ← readFrameHeader data (pos + 4)
      let (content, p) ← readBlocks data h (data.size + 1) p Carry.initial ByteArray.empty
      if let some n := h.contentSize then
        if content.size ≠ n then throw .contentSizeMismatch
      let p ←
        if h.checksum then
          if data.size < p + 4 then throw (.truncated "checksum")
          if leAt data p 4 ≠ (XxHash64.hash content).toNat % Nat.pow 2 32 then
            throw .checksumMismatch
          pure (p + 4)
        else pure p
      if p ≥ data.size then return out ++ content
      readFrames data fuel p (out ++ content)

/-- The three header bytes of a block. -/
def blockHeader (last : Bool) (kind size : Nat) : List UInt8 :=
  let v := size * 8 + kind * 2 + (if last then 1 else 0)
  [v.toUInt8, (v / 256).toUInt8, (v / 65536).toUInt8]

/-- The concatenated contents of the frames of a zstd stream. -/
def decompress (data : ByteArray) : Except ZstdError ByteArray :=
  readFrames data (data.size + 1) 0 ByteArray.empty

end Decimation.Codec.Zstd
