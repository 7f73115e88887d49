import Decimation.Series.Range
import Decimation.Selection.Error
import Decimation.Text.Quote
import Decimation.Codec.Compression
import Decimation.Snapshot.IndexEncoding
import Decimation.Word
/-!
# Why a configuration is refused

The causes for which a downsampling configuration, an encoder option, or a name of an
algorithm or a compression kind is refused. All are invalid configurations; most carry a more
specific class. A configuration file whose decoding traps is not refused but stops the
machine; `trap` carries that fault to the caller.
-/

namespace Decimation

/-- Why a configuration is refused. -/
inductive ConfigError where
  /-- no algorithm has this name -/
  | unknownAlgorithmName (name : List UInt8)
  /-- no algorithm has this code -/
  | unknownAlgorithmCode (code : UInt8)
  /-- the width is zero or negative -/
  | widthNotPositive (width : Int)
  /-- the width is below what the algorithm needs -/
  | widthBelowMinimum (alg : Algorithm) (width : Int)
  /-- the x-range is invalid -/
  | range (e : RangeError)
  /-- no compression kind has this name -/
  | unknownCompressionName (name : String)
  /-- an encoder was given an index encoding code that names none -/
  | badIndexEncoding (code : UInt8)
  /-- an encoder was given a compression code that names none -/
  | badCompression (code : UInt8)
  /-- a configuration file is not a well-formed document of the expected shape -/
  | fileSyntax (detail : String)
  /-- a configuration file gives a NaN bound -/
  | fileNaNBound
  /-- decoding a configuration file trapped -/
  | trap (t : Trap)

namespace ConfigError

/-- The class a failure is tagged with (a range failure carries its own). -/
def errorClass : ConfigError → ErrorClass
  | unknownAlgorithmName .. | unknownAlgorithmCode .. => .unknownAlgorithm
  | widthNotPositive .. | widthBelowMinimum .. => .invalidWidth
  | range .. | fileNaNBound => .invalidRange
  | unknownCompressionName .. | badIndexEncoding .. | badCompression .. => .invalidOption
  | fileSyntax .. | trap .. => .invalidConfiguration

/-- What the failure says beyond its class. -/
def detail : ConfigError → String
  | unknownAlgorithmName name => Text.quoteBytes name
  | unknownAlgorithmCode c => "0x" ++ hexDigits c.toNat
  | widthNotPositive w => s!"width must be positive, got {w}"
  | widthBelowMinimum a w => a.name ++ " needs width >= " ++ toString a.minOutput ++ s!", got {w}"
  | range e => RangeError.detail e
  | unknownCompressionName name => "unknown compression " ++ Text.quote name
  | badIndexEncoding c => "index encoding " ++ IndexEncoding.codeName c
  | badCompression c => "compression " ++ Compression.codeName c
  | fileSyntax d => "decode yaml: " ++ d
  | fileNaNBound => "NaN bound"
  | trap t => t.message

/-- The trap a failure stands for, if it is one. -/
def trap? : ConfigError → Option Trap
  | trap t => some t
  | _ => none

instance : Failure ConfigError where
  message e := e.errorClass.tag e.detail
  classes e := e.errorClass.lineage

end ConfigError

end Decimation
