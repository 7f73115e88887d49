import Decimation.Cli.Execute
/-!
# The command line

`decimate` runs the tool (`Decimation.Cli.execute`) against the real file system: what the
invocation prints goes to standard output, and a failure is logged to standard error as a
fatal entry, the process then exiting with status 1.
-/

open Decimation.Cli

/-- The fault a system error reports, and whether it came from reading rather than opening. -/
def faultOfError : IO.Error → FileFault × Bool
  | .noFileOrDirectory .. => (.notFound, false)
  | .permissionDenied .. => (.denied, false)
  | .inappropriateType .. => (.isDirectory, true)
  | e => (.other (toString e), false)

/-- A refused operation on `path`, named by the step the system error belongs to. -/
def fileErrorOf (opening path : String) (e : IO.Error) : FileError :=
  let (fault, reading) := faultOfError e
  ⟨if reading then "read" else opening, path, fault⟩

instance : FileStore IO where
  readFile path := do
    try return .ok (← IO.FS.readBinFile path)
    catch e => return .error (fileErrorOf "open" path e)
  writeFile path bytes := do
    try return .ok (← IO.FS.writeBinFile path bytes)
    catch e => return .error (fileErrorOf "open" path e)

/-- The text of a fatal log entry for a failure. -/
def fatalEntry (message : String) : String :=
  "level=fatal msg=\"decimate failed\" error=" ++ Decimation.Text.quote message

/-- Runs the tool on the command line's arguments. -/
def main (args : List String) : IO UInt32 := do
  let outcome : Outcome ← execute args
  let out ← IO.getStdout
  out.write outcome.stdout
  out.flush
  match outcome.error with
  | none => return 0
  | some e =>
    let err ← IO.getStderr
    err.putStrLn (fatalEntry (Decimation.Failure.message e))
    return 1
