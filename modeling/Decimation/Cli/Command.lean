import Decimation.Cli.Completion
import Decimation.Cli.Flags
/-!
# The commands of the tool

The tool `decimate` has the commands `run` (downsample a CSV series), `inspect` (summarize a
snapshot file), `help` (show the help of a command) and `completion`, whose subcommands
`bash`, `zsh`, `fish` and `powershell` write shell completion scripts. Each command has its
own flags; the tool's flags `--log-level` and `--no-color` hold for all of them, and every
command also takes `-h, --help`, the tool itself also `-v, --version`.

The help of a command is its description, then its usage: how it is called, its
subcommands, its own flags and the tool's, each flag on a line with its short and long names,
the kind of value it takes, what it is for and its default when that is not the zero value.
-/

namespace Decimation.Cli

/-- The commands of the tool. -/
inductive Command where
  | root
  | run
  | inspect
  | help
  | completion
  | script (s : Shell)
  /-- the hidden command the completion scripts ask, called `__complete` when the answer is to
  give descriptions and `__completeNoDesc` when not -/
  | complete (descriptions : Bool)
  deriving DecidableEq, Repr

/-- How many positional arguments a command accepts. -/
inductive ArgRule where
  /-- any number -/
  | any
  /-- none: a positional argument is taken for an unknown command -/
  | none
  /-- exactly this many -/
  | exactly (n : Nat)
  /-- at least this many -/
  | atLeast (n : Nat)
  deriving DecidableEq, Repr

/-- The name the tool is called by. -/
def toolName : String := "decimate"

/-- The version the tool reports. -/
def toolVersion : String := "dev"

/-- The flags every command of the tool takes. -/
def toolFlags : List Flag :=
  [⟨"log-level", some 'l', .text, "info",
      "set the logging level (can be one of: debug, info, warn, error, or fatal)"⟩,
    ⟨"no-color", none, .bool, "false", "disable colored output"⟩]

/-- The flags of `run`, in the order they are declared. -/
def runFlags : List Flag :=
  [⟨"input", some 'i', .text, "", "input CSV file"⟩,
    ⟨"config", some 'c', .text, "", "YAML config file"⟩,
    ⟨"width", some 'w', .int, "1000", "number of points to keep"⟩,
    ⟨"algorithm", some 'a', .text, "lttb", "downsampling algorithm (lttb or nth)"⟩,
    ⟨"x-start", none, .float, "0", "inclusive lower x bound"⟩,
    ⟨"x-end", none, .float, "0", "exclusive upper x bound"⟩,
    ⟨"output", some 'o', .text, "", "output CSV file (default stdout)"⟩,
    ⟨"snapshot", none, .text, "", "write a binary snapshot instead of CSV"⟩,
    ⟨"compression", none, .text, "none", "snapshot compression (none, zstd, s2 or lz4)"⟩,
    ⟨"index-encoding", none, .text, "delta", "snapshot index encoding (raw or delta)"⟩,
    ⟨"big-endian", none, .bool, "false", "write the snapshot in big-endian byte order"⟩]

namespace Command

/-- The name of a command. -/
def name : Command → String
  | root => toolName
  | run => "run"
  | inspect => "inspect"
  | help => "help"
  | completion => "completion"
  | script s => s.name
  | complete _ => "__complete"

/-- How a command is called, from the tool's name on. -/
def path : Command → String
  | root => toolName
  | script s => toolName ++ " completion " ++ s.name
  | c => toolName ++ " " ++ c.name

/-- How a command's usage line reads after its parent's path. -/
def use : Command → String
  | root => toolName
  | inspect => "inspect FILE"
  | help => "help [command]"
  | complete _ => "__complete [command-line]"
  | c => c.name

/-- One line on what a command does. -/
def short : Command → String
  | root => "downsample time series for plotting"
  | run => "downsample a CSV series"
  | inspect => "print a summary of a snapshot file"
  | help => "Help about any command"
  | completion => "Generate the autocompletion script for the specified shell"
  | script s => "Generate the autocompletion script for " ++ s.name
  | complete _ => "Request shell completion choices for the specified command-line"

/-- What a command does, at length; empty when the short line says it all. -/
def long : Command → String
  | run =>
    "Reads a CSV file with a header row (first column x, second column y), downsamples it " ++
      "and writes the kept rows as CSV or as a binary snapshot. Flags override the YAML config."
  | help =>
    "Help provides help for any command in the application.\nSimply type " ++ toolName ++
      " help [path to command] for full details."
  | completion =>
    "Generate the autocompletion script for " ++ toolName ++ " for the specified shell.\n" ++
      "See each sub-command's help for details on how to use the generated script.\n"
  | script s => s.about toolName
  | complete _ =>
    "__complete is a special command that is used by the shell completion logic\n" ++
      "to request completion choices for the specified command-line."
  | _ => ""

/-- The subcommands, in the order they were added. -/
def children : Command → List Command
  | root => [run, inspect, help, completion]
  | completion => Shell.all.map script
  | _ => []

/-- The names and short lines of the subcommands that help lists. -/
def listed : Command → List (String × String)
  | root => [completion, help, inspect, run].map fun c => (c.name, c.short)
  | completion =>
    ((Shell.all.map script).mergeSort fun a b => decide (a.name ≤ b.name)).map fun c =>
      (c.name, c.short)
  | _ => []

/-- A command that does something when called; the others only show their help. -/
def runnable : Command → Bool
  | root | completion => false
  | _ => true

/-- The positional arguments a command accepts. -/
def argRule : Command → ArgRule
  | run | completion | script _ => .none
  | inspect => .exactly 1
  | complete _ => .atLeast 1
  | _ => .any

/-- The flags a command declares for itself. -/
def ownFlags : Command → List Flag
  | root => toolFlags
  | run => runFlags
  | inspect => [⟨"points", none, .bool, "false", "also print every point as x,y,index"⟩]
  | script _ => [⟨"no-descriptions", none, .bool, "false", "disable completion descriptions"⟩]
  | _ => []

/-- The tool's flags, as a subcommand inherits them. -/
def inherited (c : Command) : List Flag := if c = root then [] else toolFlags

/-- The flags known while the command is being looked up. -/
def knownFlags (c : Command) : List Flag := c.ownFlags ++ c.inherited

/-- The help flag of a command. -/
def helpFlag (c : Command) : Flag := ⟨"help", some 'h', .bool, "false", "help for " ++ c.name⟩

/-- The tool's version flag. -/
def versionFlag : Flag := ⟨"version", some 'v', .bool, "false", "version for " ++ toolName⟩

/-- The flags of a command besides the tool's, as help shows them. -/
def localFlags (c : Command) : List Flag :=
  c.ownFlags ++ [c.helpFlag] ++ (if c = root then [versionFlag] else [])

/-- Every flag a command reads when it is called. -/
def flags (c : Command) : List Flag := c.localFlags ++ c.inherited

/-- The flags that must be given. -/
def required : Command → List String
  | run => ["input"]
  | _ => []

/-- The groups of flags of which at most one may be given. -/
def exclusive : Command → List (List String)
  | run => [["output", "snapshot"]]
  | _ => []

end Command

/-- A text without its trailing blank characters. -/
def trimEnd (s : String) : String :=
  String.ofList
    ((s.toList.reverse.dropWhile fun c => c = ' ' ∨ c = '\n' ∨ c = '\t' ∨ c = '\r').reverse)

/-- The default of a flag is the zero value of its kind, which help does not show. -/
def Flag.zeroDefault (f : Flag) : Bool :=
  match f.kind with
  | .text => f.default.isEmpty
  | .int | .float => f.default = "0"
  | .bool => f.default = "false"

/-- The names part of a flag's help line. -/
def Flag.namesColumn (f : Flag) : String :=
  (match f.short with
    | some c => "  -" ++ String.singleton c ++ ", --" ++ f.name
    | none => "      --" ++ f.name) ++
  (if f.kind.label.isEmpty then "" else " " ++ f.kind.label)

/-- What a flag's help line says after the names. -/
def Flag.usageColumn (f : Flag) : String :=
  f.usage ++
    if f.zeroDefault then ""
    else if f.kind = .text then " (default " ++ Text.quote f.default ++ ")"
    else " (default " ++ f.default ++ ")"

/-- The flags sorted by name. -/
def sortFlags (fs : List Flag) : List Flag := fs.mergeSort fun a b => decide (a.name ≤ b.name)

/-- The help lines of flags, sorted by name, their usages aligned two places after the
longest names part. -/
def flagLines (fs : List Flag) : String :=
  let fs := sortFlags fs
  let width := (fs.map fun f => f.namesColumn.length + 1).foldl max 0
  String.join (fs.map fun f =>
    f.namesColumn ++ " " ++ String.ofList (List.replicate (width - f.namesColumn.length) ' ') ++
      " " ++ f.usageColumn ++ "\n")

namespace Command

/-- How a command is called, with `[flags]` except for the bash script's command and the
hidden one. -/
def useLine (c : Command) : String :=
  (match c with
    | root => c.use
    | script _ => toolName ++ " completion " ++ c.use
    | _ => toolName ++ " " ++ c.use) ++
  (if c = script .bash ∨ c = complete true ∨ c = complete false then "" else " [flags]")

/-- The usage of a command whose own flags are `own`. -/
def usageWith (c : Command) (own : List Flag) : String :=
  let subs := c.listed
  let pad := max 11 ((subs.map fun p => p.1.length).foldl max 0)
  "Usage:" ++
    (if c.runnable then "\n  " ++ c.useLine else "") ++
    (if subs.isEmpty then "" else "\n  " ++ c.path ++ " [command]") ++
    (if subs.isEmpty then ""
      else "\n\nAvailable Commands:" ++
        String.join (subs.map fun p => "\n  " ++ padRight p.1 pad ++ " " ++ p.2)) ++
    "\n\nFlags:\n" ++ trimEnd (flagLines own) ++
    (if c.inherited.isEmpty then ""
      else "\n\nGlobal Flags:\n" ++ trimEnd (flagLines c.inherited)) ++
    (if subs.isEmpty then ""
      else "\n\nUse \"" ++ c.path ++ " [command] --help\" for more information about a command.") ++
    "\n"

/-- The usage of a command. -/
def usage (c : Command) : String := c.usageWith c.localFlags

/-- The usage of a command before its help flag (and the tool's version flag) is added: the
help shown for an unknown topic lists only the tool's own flags. -/
def bareUsage (c : Command) : String := c.usageWith c.ownFlags

/-- The help of a command: its description and its usage. -/
def helpText (c : Command) : String :=
  let about := trimEnd (if c.long.isEmpty then c.short else c.long)
  (if about.isEmpty then "" else about ++ "\n\n") ++ c.usage

/-- The text the version flag prints. -/
def versionText : String := toolName ++ " version " ++ toolVersion ++ "\n"

end Command

end Decimation.Cli
