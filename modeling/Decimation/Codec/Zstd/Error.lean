/-!
# Why a zstd stream is refused

Each cause names the rule of the zstd format that the stream breaks.
-/

namespace Decimation.Codec.Zstd

/-- Why a zstd stream cannot be decoded. -/
inductive ZstdError where
  | badMagic
  | truncated (what : String)
  | reservedBit
  | windowTooLarge
  | windowTooSmall
  | unknownDictionary
  | reservedBlockType
  | blockTooLarge
  | blockTooSmall
  | contentSizeMismatch
  | checksumMismatch
  | badLiterals (what : String)
  | badHuffman (what : String)
  | badFse (what : String)
  | badSequences (what : String)
  | badBitstream (what : String)
  deriving Repr

/-- The text of a failure. -/
def ZstdError.text : ZstdError → String
  | .badMagic => "invalid input: magic number mismatch"
  | .truncated w => "unexpected end of input reading " ++ w
  | .reservedBit => "reserved bit set on frame header"
  | .windowTooLarge => "window size exceeded"
  | .windowTooSmall => "window size too small"
  | .unknownDictionary => "unknown dictionary"
  | .reservedBlockType => "invalid input: reserved block type encountered"
  | .blockTooLarge => "block too large"
  | .blockTooSmall => "block too small"
  | .contentSizeMismatch => "frame content size mismatch"
  | .checksumMismatch => "invalid checksum"
  | .badLiterals w => "literals: " ++ w
  | .badHuffman w => "huffman: " ++ w
  | .badFse w => "fse: " ++ w
  | .badSequences w => "sequences: " ++ w
  | .badBitstream w => "bitstream: " ++ w

end Decimation.Codec.Zstd
