import Decimation.Cli.Error
import Decimation.Snapshot.Summary
import Decimation.Text.Utf8
import Decimation.Text.Case
/-!
# What `run` and `inspect` do

`run` reads a CSV file into a frame, downsamples it and writes the kept rows: as CSV to the
output file, or to standard output when none is named, or as a snapshot file. Its
configuration comes from a YAML file when one is named, and a flag that is given overrides
the file: the width and the algorithm fall back to the flags' defaults (1000 and LTTB) when
the file leaves them out, and `--x-start` or `--x-end` set that bound of the x-range.

`inspect` prints the summary of a snapshot file (`Decimation.summaryText`).

Both work in any monad with a `FileStore`, so they run as well against real files as against
a file system in memory.
-/

namespace Decimation.Cli

/-- The settings of `run`, as its flags give them; an option is some when its flag is given. -/
structure RunSettings where
  input : String
  config : String
  width : Option Int
  algorithm : Option String
  xStart : Option Float
  xEnd : Option Float
  output : String
  snapshot : String
  compression : String
  indexEncoding : String
  bigEndian : Bool

/-- The width when the flag is not given. -/
def defaultWidth : Int := 1000

namespace Given

/-- The latest text given to a flag, or `d`. -/
def text (g : Given) (name d : String) : String :=
  match g.value? name with
  | some (.text s) => s
  | _ => d

/-- The latest integer given to a flag. -/
def int? (g : Given) (name : String) : Option Int :=
  match g.value? name with
  | some (.int i) => some i
  | _ => none

/-- The latest float given to a flag. -/
def float? (g : Given) (name : String) : Option Float :=
  match g.value? name with
  | some (.float f) => some f
  | _ => none

/-- The latest truth value given to a flag, or false. -/
def bool (g : Given) (name : String) : Bool :=
  match g.value? name with
  | some (.bool b) => b
  | _ => false

end Given

/-- The settings of `run` from its flags. -/
def RunSettings.ofGiven (g : Given) : RunSettings where
  input := g.text "input" ""
  config := g.text "config" ""
  width := g.int? "width"
  algorithm := match g.value? "algorithm" with
    | some (.text s) => some s
    | _ => none
  xStart := g.float? "x-start"
  xEnd := g.float? "x-end"
  output := g.text "output" ""
  snapshot := g.text "snapshot" ""
  compression := g.text "compression" "none"
  indexEncoding := g.text "index-encoding" "delta"
  bigEndian := g.bool "big-endian"

/-- The file's configuration with the given flags laid over it. -/
def RunSettings.overlay (s : RunSettings) (fc : FileConfig) : FileConfig :=
  let width := match s.width, fc.width with
    | some w, _ => some w
    | none, some w => some w
    | none, none => some defaultWidth
  let algorithm := match s.algorithm with
    | some a => a.toUTF8.toList
    | none => if fc.algorithm.isEmpty then Algorithm.lttb.name.toUTF8.toList else fc.algorithm
  let xRange :=
    if s.xStart.isNone && s.xEnd.isNone then fc.xRange
    else
      let r := fc.xRange.getD ⟨none, none⟩
      some ⟨s.xStart.orElse fun _ => r.start, s.xEnd.orElse fun _ => r.stop⟩
  ⟨algorithm, width, xRange⟩

/-- The index encoding a name gives: `raw`, or `delta` (also for an empty name), ignoring case
and surrounding blanks. -/
def parseIndexEncoding (name : String) : Except CliError IndexEncoding :=
  match Text.lower (Text.trimBlank name) with
  | "raw" => .ok .raw
  | "" | "delta" => .ok .delta
  | _ => .error (.indexEncoding name)

variable {m : Type → Type} [Monad m] [FileStore m]

/-- The configuration of a `run`: the file's, if one is named, under the flags. -/
def runConfig (s : RunSettings) : m (Except CliError Config) := do
  let fc : Except CliError FileConfig ←
    if s.config.isEmpty then pure (.ok FileConfig.empty)
    else do
      match ← FileStore.readFile s.config with
      | .error e =>
        if e.step = "read" then pure (.error (.parseConfig s.config (.fileSyntax e.text)))
        else pure (.error (.openConfig e))
      | .ok bs => pure ((readFileConfig bs.toList).mapError (.parseConfig s.config))
  match fc with
  | .error e => return .error e
  | .ok fc => return ((s.overlay fc).config).mapError .config

/-- Writes the kept rows of a selection as a snapshot file. -/
def writeSnapshot (s : RunSettings) (sel : Selection) : m (Except CliError Unit) := do
  let made : Except CliError ByteArray := do
    let comp ← (parseCompression s.compression).mapError .compression
    let enc ← parseIndexEncoding s.indexEncoding
    let y ← (sel.frame.dimension 1).mapError .frame
    let snap ← (Snapshot.capture y.name sel.frame (sel.picked.map (·.map Int.ofNat))).mapError
      .capture
    let opts : List (Option EncoderOption) :=
      [some (.compression comp.code), some (.indexEncoding enc.code)] ++
        (if s.bigEndian then [some (.order .big)] else [])
    (snap.encode Libraries.standard opts).mapError .encode
  match made with
  | .error e => return .error e
  | .ok bytes => return (← FileStore.writeFile s.snapshot bytes).mapError .writeSnapshot

/-- Runs `run`: what it prints, or why it fails. -/
def runCommand (s : RunSettings) : m (Except CliError ByteArray) := do
  match ← runConfig s with
  | .error e => return .error e
  | .ok cfg =>
  match ← FileStore.readFile s.input with
  | .error e =>
    return .error (if e.step = "read" then .readInput s.input e else .openInput e)
  | .ok bs =>
  let picked : Except CliError Selection := do
    let frame ← (Frame.ofCsv bs.toList).mapError (.load s.input)
    (cfg.select frame).mapError .select
  match picked with
  | .error e => return .error e
  | .ok sel =>
  if !s.snapshot.isEmpty then
    return (← writeSnapshot s sel).map fun _ => ByteArray.empty
  let kept : Except CliError Frame := sel.output.mapError .frame
  match kept with
  | .error e => return .error e
  | .ok out =>
    if s.output.isEmpty then return .ok ⟨out.toCsv.toArray⟩
    else
      let written ← FileStore.writeFile s.output ⟨out.toCsv.toArray⟩
      return (written.map fun _ => ByteArray.empty).mapError .createOutput

/-- Runs `inspect` on a snapshot file: its summary, or why there is none. -/
def inspectCommand (path : String) (points : Bool) : m (Except CliError String) := do
  match ← FileStore.readFile path with
  | .error e => return .error (.readSnapshot e)
  | .ok data => return (summarize Libraries.standard data points).mapError .decode

end Decimation.Cli
