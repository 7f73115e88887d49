/-!
# Compression kinds

A snapshot's payload is stored as is or compressed with one of three block codecs. Each kind has
a one-byte code: 1 none, 2 zstd, 3 S2, 4 LZ4; every other code names no kind and is written
`Unknown`.
-/

namespace Decimation

/-- How a payload is compressed. -/
inductive Compression where
  | none
  | zstd
  | s2
  | lz4
  deriving DecidableEq, Repr

namespace Compression

/-- The one-byte code of a compression kind. -/
def code : Compression → UInt8
  | none => 1
  | zstd => 2
  | s2 => 3
  | lz4 => 4

/-- The compression kind with a code, if any. -/
def ofCode? (c : UInt8) : Option Compression :=
  if c = 1 then some none else if c = 2 then some zstd
  else if c = 3 then some s2 else if c = 4 then some lz4 else Option.none

/-- The name of a compression kind. -/
def name : Compression → String
  | none => "None"
  | zstd => "Zstd"
  | s2 => "S2"
  | lz4 => "LZ4"

/-- The name of the kind with a code, or `Unknown`. -/
def codeName (c : UInt8) : String :=
  match ofCode? c with
  | some k => k.name
  | Option.none => "Unknown"

theorem ofCode?_code (k : Compression) : ofCode? k.code = some k := by
  cases k <;> rfl

end Compression

end Decimation
