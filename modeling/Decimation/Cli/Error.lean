import Decimation.Cli.Files
import Decimation.Cli.Flags
import Decimation.Config.File
import Decimation.Csv.Table
import Decimation.Downsampling
import Decimation.Snapshot.Stored
/-!
# Why an invocation fails

A failure of the tool's own checks (flags, commands, arguments, files) is in no class of
failure. A failure of the library keeps its classes, and its message follows what the tool
was doing: `invalid downsampling configuration: …`, `cannot load data.csv: …`,
`cannot encode snapshot: …`.
-/

namespace Decimation.Cli

/-- Why an invocation of the tool fails. -/
inductive CliError where
  /-- the flags of the command cannot be read -/
  | flags (e : FlagError)
  /-- a word names no command of the tool; the commands it may have meant -/
  | unknownCommand (word path : String) (hints : List String)
  /-- the command takes exactly `want` arguments -/
  | argCount (want got : Nat)
  /-- the command takes at least `least` arguments -/
  | tooFewArgs (least got : Nat)
  /-- the logging level names none -/
  | logLevel (level : String)
  /-- flags that must be given were not -/
  | missingFlags (names : List String)
  /-- flags of which at most one may be given were given together -/
  | exclusiveFlags (group given : List String)
  /-- the configuration file cannot be opened -/
  | openConfig (e : FileError)
  /-- the configuration file does not hold a configuration -/
  | parseConfig (path : String) (e : ConfigError)
  /-- the configuration is refused -/
  | config (e : ConfigError)
  /-- the input cannot be opened -/
  | openInput (e : FileError)
  /-- the input cannot be read -/
  | readInput (path : String) (e : FileError)
  /-- the input does not hold a frame -/
  | load (path : String) (e : CsvError)
  /-- the rows cannot be picked -/
  | select (e : DownsampleError)
  /-- the frame lacks a column or row it should have -/
  | frame (e : FrameError)
  /-- the output cannot be created -/
  | createOutput (e : FileError)
  /-- the compression names none -/
  | compression (e : ConfigError)
  /-- the index encoding names none -/
  | indexEncoding (name : String)
  /-- the snapshot cannot be taken -/
  | capture (e : CaptureError)
  /-- the snapshot cannot be encoded -/
  | encode (e : EncodeError)
  /-- the snapshot cannot be written -/
  | writeSnapshot (e : FileError)
  /-- the snapshot file cannot be read -/
  | readSnapshot (e : FileError)
  /-- the snapshot file does not hold a snapshot -/
  | decode (e : DecodeError)

/-- The list of names as `[a b]`. -/
def bracketed (names : List String) : String := "[" ++ " ".intercalate names ++ "]"

namespace CliError

/-- The message of a failure. -/
def message : CliError → String
  | flags e => e.text
  | unknownCommand w p hints =>
    "unknown command " ++ Text.quote w ++ " for " ++ Text.quote p ++
      (if hints.isEmpty then ""
        else "\n\nDid you mean this?\n" ++ String.join (hints.map fun h => "\t" ++ h ++ "\n"))
  | argCount want got => s!"accepts {want} arg(s), received {got}"
  | tooFewArgs least got => s!"requires at least {least} arg(s), only received {got}"
  | logLevel l => "invalid --log-level: not a valid logrus Level: " ++ Text.quote l
  | missingFlags names => "required flag(s) \"" ++ "\", \"".intercalate names ++ "\" not set"
  | exclusiveFlags group given =>
    "if any flags in the group " ++ bracketed group ++ " are set none of the others can be; " ++
      bracketed given ++ " were all set"
  | openConfig e => "cannot open config file: " ++ e.text
  | parseConfig p e => "cannot parse " ++ p ++ ": " ++ Failure.message e
  | config e => "invalid downsampling configuration: " ++ Failure.message e
  | openInput e => "cannot open input: " ++ e.text
  | readInput p e => "cannot load " ++ p ++ ": cannot read csv: " ++ e.text
  | load p e => "cannot load " ++ p ++ ": " ++ Failure.message e
  | select e => Failure.message e
  | frame e => Failure.message e
  | createOutput e => "cannot create output: " ++ e.text
  | compression e => Failure.message e
  | indexEncoding n => "unknown index encoding " ++ Text.quote n
  | capture e => Failure.message e
  | encode e => "cannot encode snapshot: " ++ Failure.message e
  | writeSnapshot e => "cannot write snapshot: " ++ e.text
  | readSnapshot e => "cannot read snapshot: " ++ e.text
  | decode e => Failure.message e

/-- The classes of a failure: those of the library failure inside, if any. -/
def classes : CliError → List ErrorClass
  | parseConfig _ e | config e | compression e => Failure.classes e
  | load _ e => Failure.classes e
  | select e => Failure.classes e
  | frame e => Failure.classes e
  | capture e => Failure.classes e
  | encode e => Failure.classes e
  | decode e => Failure.classes e
  | _ => []

instance : Failure CliError where
  message := message
  classes := classes

/-- The trap a failure stands for, if it is one: reading the configuration file trapped. -/
def trap? : CliError → Option Trap
  | parseConfig _ e => e.trap?
  | _ => none

end CliError

end Decimation.Cli
