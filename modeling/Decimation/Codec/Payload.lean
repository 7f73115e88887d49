import Decimation.Codec.Compression
import Decimation.Codec.Lz4Compress
import Decimation.Codec.S2Compress
import Decimation.Codec.Zstd.Compress
import Decimation.Hash.XxHash64
import Decimation.Selection.Error
/-!
# Compressing and restoring payloads

Payloads are compressed by libraries: LZ4 and S2 blocks and zstd frames, with a 64-bit hash for
names and checksums. `Libraries` says what each library is asked for, and `Libraries.standard`
is the implementation under `Codec` and `Hash`; statements about stored payloads take the
libraries as a parameter and name what they assume of them.

`Compression.compress` and `Compression.restore` apply a compression kind to a payload; the
empty payload stays empty under every kind. Restoring takes the size the payload should have
(`rawSize`, ignored when not positive):

* none: the stored bytes are the payload, and must have the expected size;
* LZ4: a block can expand at most 255-fold; it is decoded into at most `rawSize` bytes (it may
  come out shorter), or, without an expected size, into at most the largest of `4 n`, `8 n`,
  … that does not exceed 128 MiB;
* S2: the block's stated length must be the expected size;
* zstd: any run of frames.
-/

namespace Decimation

/-- Why a payload cannot be restored. -/
inductive CodecError where
  /-- the code names no compression kind -/
  | unsupported (code : UInt8)
  /-- stored bytes without compression have the wrong size -/
  | storedSizeMismatch (actual expected : Nat)
  /-- an LZ4 block too small for the expected size -/
  | lz4CannotExpand (stored expected : Nat)
  /-- an LZ4 block that is malformed or does not fit the expected size -/
  | lz4Corrupt
  /-- an LZ4 block that is malformed or larger than the largest buffer tried -/
  | lz4NoBuffer
  /-- an S2 block whose length header is malformed -/
  | s2BadLength
  /-- an S2 block whose stated length is not the expected size -/
  | s2LengthMismatch (stated expected : Nat)
  /-- an S2 block that is malformed -/
  | s2Corrupt
  /-- a zstd stream that is malformed -/
  | zstd (e : Codec.Zstd.ZstdError)

namespace CodecError

/-- The message of a failure. -/
def message : CodecError → String
  | unsupported c => "unsupported compression type: " ++ Compression.codeName c ++ " (0x" ++
      hexDigits c.toNat ++ ")"
  | storedSizeMismatch a e => s!"uncompressed payload is {a} bytes, expected {e}"
  | lz4CannotExpand s e => s!"lz4 block of {s} bytes cannot expand to {e}"
  | lz4Corrupt => "lz4 decompression failed: lz4: invalid source or destination buffer too short"
  | lz4NoBuffer => "lz4: invalid source or destination buffer too short"
  | s2BadLength => "s2 decompression failed: s2: corrupt input"
  | s2LengthMismatch s e => s!"s2 block decodes to {s} bytes, expected {e}"
  | s2Corrupt => "s2: corrupt input"
  | zstd e => "zstd decompression failed: " ++ e.text

instance : Failure CodecError where
  message := CodecError.message
  classes _ := []

end CodecError

/-- The libraries payloads are written and read with. -/
structure Libraries where
  /-- an LZ4 block holding the bytes -/
  lz4Compress : ByteArray → ByteArray
  /-- the bytes an LZ4 block holds, if they fit the capacity given -/
  lz4Decode : ByteArray → Nat → Option ByteArray
  /-- an S2 block holding the bytes -/
  s2Compress : ByteArray → ByteArray
  /-- the length an S2 block states for its bytes -/
  s2DecodedLength : ByteArray → Option Nat
  /-- the bytes an S2 block holds -/
  s2Decode : ByteArray → Option ByteArray
  /-- a zstd frame holding the bytes -/
  zstdCompress : ByteArray → ByteArray
  /-- the bytes a run of zstd frames holds -/
  zstdDecompress : ByteArray → Except Codec.Zstd.ZstdError ByteArray
  /-- the 64-bit hash of the bytes -/
  hash : ByteArray → UInt64

/-- The libraries as implemented under `Codec` and `Hash`. -/
def Libraries.standard : Libraries where
  lz4Compress := Codec.Lz4.compressBlock
  lz4Decode := Codec.Lz4.decodeBlock
  s2Compress := Codec.S2.compressBlock
  s2DecodedLength src := (Codec.S2.decodedLength src).map Prod.fst
  s2Decode src := match Codec.S2.decodedLength src with
    | some (n, start) => Codec.S2.decodeBody src n start
    | none => none
  zstdCompress := Codec.Zstd.compressFrame
  zstdDecompress := Codec.Zstd.decompress
  hash := XxHash64.hash

/-- The largest LZ4 output considered without an expected size. -/
def lz4MaxBlock : Nat := 128 * 1024 * 1024

/-- The largest of `b, 2b, 4b, …` not above `lz4MaxBlock`, if `b` itself is not above it. -/
def largestDoubling (b : Nat) : Nat → Option Nat
  | 0 => none
  | fuel + 1 =>
    if b = 0 || b > lz4MaxBlock then none
    else match largestDoubling (2 * b) fuel with
      | some m => some m
      | none => some b

namespace Compression

/-- The compressed form of a payload. -/
def compress (k : Compression) (lib : Libraries) (data : ByteArray) : ByteArray :=
  if data.size = 0 then ByteArray.empty
  else match k with
    | .none => data
    | .lz4 => lib.lz4Compress data
    | .s2 => lib.s2Compress data
    | .zstd => lib.zstdCompress data

/-- The payload restored from its compressed form, expected to have `rawSize` bytes when that
is positive. -/
def restore (k : Compression) (lib : Libraries) (data : ByteArray) (rawSize : Int) :
    Except CodecError ByteArray :=
  match k with
  | .none =>
    if rawSize > 0 && (data.size : Int) ≠ rawSize then
      .error (.storedSizeMismatch data.size rawSize.toNat)
    else .ok data
  | .lz4 =>
    if data.size = 0 then .ok ByteArray.empty
    else if rawSize > 0 then
      if rawSize > data.size * 255 then .error (.lz4CannotExpand data.size rawSize.toNat)
      else match lib.lz4Decode data rawSize.toNat with
        | some out => .ok out
        | Option.none => .error .lz4Corrupt
    else match largestDoubling (4 * data.size) 64 with
      | some cap =>
        match lib.lz4Decode data cap with
        | some out => .ok out
        | Option.none => .error .lz4NoBuffer
      | Option.none => .error .lz4NoBuffer
  | .s2 =>
    if data.size = 0 then .ok ByteArray.empty
    else match lib.s2DecodedLength data with
      | Option.none => .error .s2BadLength
      | some n =>
        if rawSize > 0 && (n : Int) ≠ rawSize then .error (.s2LengthMismatch n rawSize.toNat)
        else match lib.s2Decode data with
          | some out => .ok out
          | Option.none => .error .s2Corrupt
  | .zstd =>
    if data.size = 0 then .ok ByteArray.empty
    else match lib.zstdDecompress data with
      | .ok out => .ok out
      | .error e => .error (.zstd e)

end Compression

/-- The compression kind with a code, or the failure for a code that names none. -/
def compressionOfCode (c : UInt8) : Except CodecError Compression :=
  match Compression.ofCode? c with
  | some k => .ok k
  | none => .error (.unsupported c)

/-- Compressed size over raw size, or zero when nothing was raw. -/
def compressionRatio (raw compressed : Int) : Float :=
  if raw = 0 then 0 else Float.ofInt compressed / Float.ofInt raw

end Decimation
