import Decimation.Config.Error
import Decimation.Text.Case
/-!
# Names of algorithms and compression kinds

Names are matched ignoring case and blank characters at either end. An algorithm is `lttb` or
`nth`. A compression kind is `none`, `zstd`, `s2` or `lz4`, and an empty name means none. A
name that matches nothing is refused with the name as given.
-/

namespace Decimation

/-- The algorithm a name, a string of bytes, stands for. A byte that is not UTF-8 matches no
letter, so reading the name with replacement characters matches as the bytes do. -/
def parseAlgorithm (name : List UInt8) : Except ConfigError Algorithm :=
  match Algorithm.ofName? (Text.lossyText name) with
  | some a => .ok a
  | none => .error (.unknownAlgorithmName name)

/-- The compression kind a name stands for; the empty name stands for none. -/
def parseCompression (name : String) : Except ConfigError Compression :=
  match Text.lower (Text.trimBlank name) with
  | "" | "none" => .ok .none
  | "zstd" => .ok .zstd
  | "s2" => .ok .s2
  | "lz4" => .ok .lz4
  | _ => .error (.unknownCompressionName name)

end Decimation
