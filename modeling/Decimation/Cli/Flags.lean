import Decimation.Decimal.Integer
/-!
# Command-line flags

A flag has a long name, written `--name`, and perhaps a one-letter short name, written `-n`.
It holds a text, an integer, a float or a truth value, and has a default.

Reading the arguments of a command goes left to right. An argument that does not start with
`-`, or is `-` alone, is a positional argument; `--` makes every argument after it positional.
A long flag takes its value after `=` in the same argument, or else from the next argument,
except that a truth flag alone means true. A run of short flags such as `-hw5` sets each
truth flag in it and gives the rest of the run, or else the next argument, to the first flag
that takes a value; `-w=5` gives `5` to `-w`. Integers are read in base 0 (see
`Decimal.readSigned`), floats and truth values as `Decimal.readFloat` and `Decimal.readBool`
read them. The first failure stops the reading.
-/

namespace Decimation.Cli

/-- What a flag holds. -/
inductive FlagKind where
  | text
  | int
  | float
  | bool
  deriving DecidableEq, Repr

/-- The name of a kind in a usage line; a truth flag shows none. -/
def FlagKind.label : FlagKind → String
  | text => "string"
  | int => "int"
  | float => "float"
  | bool => ""

/-- A flag: its long name, its short name if any, what it holds, its default as shown, and
what it is for. -/
structure Flag where
  name : String
  short : Option Char
  kind : FlagKind
  default : String
  usage : String

/-- A value given to a flag. -/
inductive FlagValue where
  | text (s : String)
  | int (i : Int)
  | float (f : Float)
  | bool (b : Bool)

/-- How a flag is named in messages: `-w, --width`, or `--x-end` without a short name. -/
def Flag.title (f : Flag) : String :=
  match f.short with
  | some c => "-" ++ String.singleton c ++ ", --" ++ f.name
  | none => "--" ++ f.name

/-- Why the arguments of a command cannot be read. -/
inductive FlagError where
  /-- a long flag with no name, or a name starting with `-` or `=` -/
  | badSyntax (arg : String)
  /-- no flag has this long name -/
  | unknownLong (name : String)
  /-- no flag has this short name, in a run of short flags -/
  | unknownShort (c : Char) (run : String)
  /-- a long flag that takes a value is last -/
  | missingLong (arg : String)
  /-- a short flag that takes a value is last, in a run of short flags -/
  | missingShort (c : Char) (run : String)
  /-- the value does not read as the flag's kind -/
  | badValue (title value reason : String)

/-- The first byte of a character's encoding, as a code point. -/
def leadByte (c : Char) : Nat := ((String.singleton c).toUTF8.toList.headD 0).toNat

/-- The message of a failure. -/
def FlagError.text : FlagError → String
  | badSyntax a => "bad flag syntax: " ++ a
  | unknownLong n => "unknown flag: --" ++ n
  | unknownShort c r => "unknown shorthand flag: " ++ Text.quoteRune (leadByte c) ++ " in -" ++ r
  | missingLong a => "flag needs an argument: " ++ a
  | missingShort c r => "flag needs an argument: " ++ Text.quoteRune (leadByte c) ++ " in -" ++ r
  | badValue t v r => "invalid argument " ++ Text.quote v ++ " for " ++ Text.quote t ++ " flag: " ++ r

/-- The value a text gives a flag, or why it gives none. -/
def Flag.read (f : Flag) (value : String) : Except FlagError FlagValue :=
  let bad (reason : String) : Except FlagError FlagValue := .error (.badValue f.title value reason)
  match f.kind with
  | .text => .ok (.text value)
  | .int =>
    match Decimal.readSigned 0 value with
    | .ok i => .ok (.int i)
    | .error e => bad (e.report "ParseInt" value)
  | .float =>
    match Decimal.readFloat value with
    | .ok x => .ok (.float x)
    | .error e => bad (e.message value)
  | .bool =>
    match Decimal.readBool value with
    | some b => .ok (.bool b)
    | none => bad (Decimal.ReadError.malformed.report "ParseBool" value)

/-- The flags given so far, latest value last, and the positional arguments. -/
structure Given where
  flags : List (String × FlagValue)
  args : List String

namespace Given

/-- Records a value for a flag. -/
def set (g : Given) (f : Flag) (v : FlagValue) : Given := { g with flags := g.flags ++ [(f.name, v)] }

/-- The flag was given. -/
def changed (g : Given) (name : String) : Bool := g.flags.any (·.1 = name)

/-- The latest value given to a flag. -/
def value? (g : Given) (name : String) : Option FlagValue :=
  (g.flags.reverse.find? (·.1 = name)).map (·.2)

end Given

/-- The flag with this long name. -/
def findLong (flags : List Flag) (name : String) : Option Flag := flags.find? (·.name = name)

/-- The flag with this short name. -/
def findShort (flags : List Flag) (c : Char) : Option Flag := flags.find? (·.short = some c)

/-- Reads a run of short flags (the argument without its `-`), taking values from `rest` when
needed: the arguments left and what was given. -/
def readShortRun (flags : List Flag) : Nat → List Char → List String → Given →
    Except FlagError (List String × Given)
  | 0, _, rest, g => .ok (rest, g)
  | _ + 1, [], rest, g => .ok (rest, g)
  | fuel + 1, run@(c :: more), rest, g =>
    if "test.".toList.isPrefixOf run then .ok (rest, g)
    else match findShort flags c with
      | none => .error (.unknownShort c (String.ofList run))
      | some f =>
        let apply (value : String) (more : List Char) (rest : List String) := do
          let v ← f.read value
          readShortRun flags fuel more rest (g.set f v)
        match more with
        | '=' :: v@(_ :: _) => apply (String.ofList v) [] rest
        | _ =>
          if f.kind = .bool then apply "true" more rest
          else if !more.isEmpty then apply (String.ofList more) [] rest
          else match rest with
            | r :: rest' => apply r [] rest'
            | [] => .error (.missingShort c (String.ofList run))

/-- Reads a long flag argument (`--name` or `--name=value`), taking its value from `rest` when
needed. -/
def readLong (flags : List Flag) (arg : String) (rest : List String) (g : Given) :
    Except FlagError (List String × Given) :=
  let body := (arg.toList.drop 2)
  match body with
  | [] | '-' :: _ | '=' :: _ => .error (.badSyntax arg)
  | _ =>
    let name := String.ofList (body.takeWhile (· ≠ '='))
    let inline := (body.dropWhile (· ≠ '=')).drop 1
    let hasValue := body.contains '='
    match findLong flags name with
    | none => .error (.unknownLong name)
    | some f => do
      let (value, rest) ←
        if hasValue then pure (String.ofList inline, rest)
        else if f.kind = .bool then pure ("true", rest)
        else match rest with
          | r :: rest' => pure (r, rest')
          | [] => throw (.missingLong arg)
      let v ← f.read value
      return (rest, g.set f v)

/-- Reads the arguments of a command against its flags; see the module header. -/
def readArgs (flags : List Flag) : Nat → List String → Given → Except FlagError Given
  | 0, _, g => .ok g
  | _ + 1, [], g => .ok g
  | fuel + 1, arg :: rest, g =>
    match arg.toList with
    | '-' :: '-' :: [] => .ok { g with args := g.args ++ rest }
    | '-' :: '-' :: _ => do
      let (rest, g) ← readLong flags arg rest g
      readArgs flags fuel rest g
    | '-' :: c :: more => do
      let run := c :: more
      let (rest, g) ← readShortRun flags (run.length + 1) run rest g
      readArgs flags fuel rest g
    | _ => readArgs flags fuel rest { g with args := g.args ++ [arg] }

/-- Reads the arguments of a command against its flags. -/
def parseFlags (flags : List Flag) (args : List String) : Except FlagError Given :=
  readArgs flags (args.length + 1) args ⟨[], []⟩

end Decimation.Cli
