import Decimation.Cli.Actions
import Decimation.Cli.Complete
import Decimation.Text.Case
/-!
# Running an invocation

An invocation runs in these steps, the first failure ending it:

1. the command is found (`findCommand`); a word left over at the tool names no command;
2. the command's flags are read (`parseFlags`);
3. with `--help` the command's help is printed, and with `--version` the tool's version; a
   command that does nothing by itself prints its help;
4. the positional arguments are checked against the command;
5. the logging level must be one of `panic`, `fatal`, `error`, `warn`, `warning`, `info`,
   `debug` or `trace`, in any case;
6. the flags that must be given are checked, then the groups of flags of which at most one
   may be given;
7. the command runs: `run` and `inspect` as `Decimation.Cli.runCommand` and
   `Decimation.Cli.inspectCommand` say, `help` by printing the help of the command its
   arguments name, and a shell's subcommand of `completion` by printing its script
   (`Shell.script`), with descriptions unless `--no-descriptions` is given.

The hidden command `__complete` reads no flag: all its arguments, at least one, are the words
of a completion request (`completionAnswer`), and its answer is printed.

What the invocation prints (bytes, since a CSV document printed need not be UTF-8) and its
failure, if any, make its outcome.
-/

namespace Decimation.Cli

/-- What an invocation prints, and why it fails if it does. -/
structure Outcome where
  stdout : ByteArray
  error : Option CliError

/-- The outcome of printing a text. -/
def Outcome.printing (text : String) : Outcome := ⟨text.toUTF8, none⟩

/-- The outcome of a failure, having printed nothing. -/
def Outcome.failing (e : CliError) : Outcome := ⟨ByteArray.empty, some e⟩

/-- A logging level the tool knows. -/
def knownLevel (level : String) : Bool :=
  ["panic", "fatal", "error", "warn", "warning", "info", "debug", "trace"].contains
    (Text.lower level)

/-- A text between backquotes when it can be, else in double quotes. -/
def backquoted (s : String) : String :=
  if s.toList.all fun c =>
      c ≠ '\x60' ∧ c ≠ '\uFEFF' ∧ (c = '\t' ∨ (c.toNat ≥ 0x20 ∧ c.toNat ≠ 0x7F))
  then "`" ++ s ++ "`" else Text.quote s

/-- What `help` prints for the words it is given. -/
def helpTopic (args : List String) : String :=
  match findCommand false args with
  | (c, _, none) => c.helpText
  | (_, _, some _) =>
    "Unknown help topic " ++ bracketed (args.map backquoted) ++ "\n" ++ Command.root.bareUsage

/-- The checks made once the flags are read, before the command runs. -/
def checkCall (c : Command) (g : Given) : Except CliError Unit := do
  match c.argRule, g.args with
  | .none, a :: _ => throw (.unknownCommand a c.path [])
  | .exactly n, args => if args.length ≠ n then throw (.argCount n args.length)
  | .atLeast n, args => if args.length < n then throw (.tooFewArgs n args.length)
  | _, _ => pure ()
  let level := g.text "log-level" "info"
  if !knownLevel level then throw (.logLevel level)
  let missing := c.required.filter fun n => !g.changed n
  if !missing.isEmpty then throw (.missingFlags missing)
  for group in c.exclusive do
    let given := group.filter g.changed
    if given.length > 1 then
      throw (.exclusiveFlags group (given.mergeSort fun a b => decide (a ≤ b)))

variable {m : Type → Type} [Monad m] [FileStore m]

/-- The outcome of a command's own work. -/
def outcomeOf (r : Except CliError ByteArray) : Outcome :=
  match r with
  | .ok out => ⟨out, none⟩
  | .error e => .failing e

/-- Runs an invocation of the tool with these arguments; see the module header. -/
def execute (args : List String) : m Outcome := do
  let (c, rest, stray) := findCommand true args
  if let some w := stray then return .failing (.unknownCommand w c.path (suggestions w))
  if let .complete d := c then
    if rest.isEmpty then return .failing (.tooFewArgs 1 0)
    return .printing (completionAnswer d rest)
  match parseFlags c.flags rest with
  | .error e => return .failing (.flags e)
  | .ok g =>
    if g.bool "help" then return .printing c.helpText
    if c = .root ∧ g.bool "version" then return .printing Command.versionText
    if !c.runnable then return .printing c.helpText
    match checkCall c g with
    | .error e => return .failing e
    | .ok () =>
      match c with
      | .run => return outcomeOf (← runCommand (RunSettings.ofGiven g))
      | .inspect =>
        let summary ← inspectCommand (g.args.headD "") (g.bool "points")
        return outcomeOf (summary.map String.toUTF8)
      | .help => return .printing (helpTopic g.args)
      | .script s => return .printing (s.script toolName !(g.bool "no-descriptions"))
      | _ => return .printing c.helpText

end Decimation.Cli
