import Decimation.Cli.Find
import Decimation.Text.Blank
/-!
# Answering a completion request

The completion scripts ask the tool what may come next on a command line by calling the
hidden command `__complete` with the words typed so far; the last word is the one being
typed, possibly empty. The answer is a list of candidates, each a word and a description
after a tab, then a directive telling the shell how to use them.

The words before the last one are looked up as an invocation would be (`findCommand`), then
read against the command's flags. The last word is then completed as one of:

* the value of a flag: it follows `--name=` or `-n=` in the same word, or a flag that takes a
  value is the word before it; no candidates are known for any value;
* the name of a flag, when it starts with `-`: the flags that must be given and are not, or
  else every flag not given yet, the tool's first, each set in the order of names;
* a positional argument: the subcommands whose name starts with it, then the flags that must
  be given; `help` completes the subcommands of the command its arguments name, and
  `completion` and its shells complete nothing, not even file names.

A command line that names no command, does not read, or asks for help or the version gets
no candidate. Of `--output` and `--snapshot`, once one is given the other is not offered.

The hidden command reads no flags, so when the request is about itself only the names of
the flags it inherits and of its help flag are offered. Each search that passes through the
hidden command records the name it was called by, and the last one decides whether
descriptions are given.
-/

namespace Decimation.Cli

/-- The candidates for the word being typed and the directive for the shell, a sum of
`Directive.noSpace` and `Directive.noFileComp`. -/
structure Reply where
  candidates : List String
  directive : Nat

namespace Directive

/-- The shell must not add a space after the candidate. -/
def noSpace : Nat := 2

/-- The shell must not offer file names when there is no candidate. -/
def noFileComp : Nat := 4

/-- The names of the directives a number holds, as the answer reports them. -/
def names (d : Nat) : String :=
  let known := [(1, "ShellCompDirectiveError"), (2, "ShellCompDirectiveNoSpace"),
    (4, "ShellCompDirectiveNoFileComp"), (8, "ShellCompDirectiveFilterFileExt"),
    (16, "ShellCompDirectiveFilterDirs"), (32, "ShellCompDirectiveKeepOrder")]
  let held := known.filterMap fun (bit, name) => if d / bit % 2 = 1 then some name else none
  if 64 ≤ d then "ERROR: unexpected ShellCompDirective value: " ++ toString d
  else if held.isEmpty then "ShellCompDirectiveDefault"
  else ", ".intercalate held

end Directive

/-- The last byte of a character's UTF-8 encoding. -/
def lastByte (c : Char) : UInt8 := ((String.singleton c).toUTF8.toList.getLast?).getD 0

/-- The flag a name given while completing names: a name of one byte is a short name only,
looked up among the command's flags; a longer one is a long name. -/
def completionFlag (c : Command) (name : List UInt8) : Option Flag :=
  match name with
  | [b] => c.flags.find? fun f => f.short.map (fun s => s.toNat) = some b.toNat
  | _ => c.flags.find? fun f => f.name.toUTF8.toList = name

/-- The word counts as a flag for the word after it: `--` and at least one more character, or
`-` and a character other than `-`. -/
def looksLikeFlag (w : String) : Bool :=
  match w.toList with
  | '-' :: '-' :: _ :: _ => true
  | '-' :: c :: _ => c ≠ '-'
  | _ => false

/-- The flag whose value is being completed. -/
structure ValueTarget where
  /-- the flag, if it is one the command knows and it takes a value -/
  flag : Option Flag
  /-- the words before the one being typed, without a flag that takes the value -/
  args : List String
  /-- the part of the word being typed that is completed -/
  word : String
  /-- a flag was named that the command does not know -/
  unknown : Bool

/-- Decides whether the word being typed is a flag's value. A word `--name=...` or
`-...n=...` names the flag before its `=`, and only the part after it is completed; a word
starting with `-` and no `=` is a flag's name; otherwise a flag written without `=` just
before is the one whose value is typed, unless it is a truth flag. -/
def valueTarget (c : Command) (args : List String) (word : String) : ValueTarget :=
  let cs := word.toList
  let (named, word', withEqual, nameOnly) : List UInt8 × String × Bool × Bool :=
    match cs with
    | '-' :: _ =>
      if cs.contains '=' then
        let before := cs.takeWhile (· ≠ '=')
        let after := String.ofList ((cs.dropWhile (· ≠ '=')).drop 1)
        match before with
        | '-' :: '-' :: name => ((String.ofList name).toUTF8.toList, after, true, false)
        | _ => ([lastByte (before.getLast?.getD '-')], after, true, false)
      else ([], word, false, true)
    | _ => ([], word, false, false)
  if nameOnly then ⟨none, args, word, false⟩
  else
    let (named, trimmed) : List UInt8 × List String :=
      if !named.isEmpty then (named, args)
      else match args.getLast? with
        | some prev =>
          if looksLikeFlag prev && !prev.toList.contains '=' then
            match prev.toList with
            | '-' :: '-' :: name => ((String.ofList name).toUTF8.toList, args.dropLast)
            | ps => ([lastByte (ps.getLast?.getD '-')], args.dropLast)
          else ([], args)
        | none => ([], args)
    if named.isEmpty then ⟨none, trimmed, word', false⟩
    else match completionFlag c named with
      | none => ⟨none, args, word, true⟩
      | some f =>
        if !withEqual && f.kind = .bool then ⟨none, args, word', false⟩
        else ⟨some f, trimmed, word', false⟩

/-- The flags of a command hidden from completion once the flags given are known: the others
of a group of which at most one may be given. -/
def hiddenFlags (c : Command) (g : Given) : List String :=
  c.exclusive.flatMap fun group =>
    group.flatMap fun given => if g.changed given then group.filter (· ≠ given) else []

/-- The candidates a flag offers for a word being typed: its long name and its short name, each
when it starts with the word, with its usage as the description. -/
def nameCandidates (hidden : List String) (word : String) (f : Flag) : List String :=
  if hidden.contains f.name then []
  else
    (if word.isPrefixOf ("--" ++ f.name) then ["--" ++ f.name ++ "\t" ++ f.usage] else []) ++
    match f.short with
    | some s => if word.isPrefixOf ("-" ++ String.singleton s) then
        ["-" ++ String.singleton s ++ "\t" ++ f.usage] else []
    | none => []

/-- The flags of a command in the order completion visits them: the inherited ones by name,
then its own by name. -/
def completionOrder (c : Command) : List Flag :=
  sortFlags c.inherited ++ sortFlags c.localFlags

/-- The candidates of the flags that must be given and are not. -/
def requiredCandidates (c : Command) (g : Given) (hidden : List String) (word : String) :
    List String :=
  (completionOrder c).flatMap fun f =>
    if c.required.contains f.name && !g.changed f.name then nameCandidates hidden word f else []

/-- The candidates of the subcommands whose name starts with the word. -/
def commandCandidates (c : Command) (word : String) : List String :=
  c.listed.filterMap fun (name, short) =>
    if word.isPrefixOf name then some (name ++ "\t" ++ short) else none

/-- The reply for a flag's name being typed: the flags that must be given and are not, or else
every flag not given yet. -/
def flagNameReply (c : Command) (g : Given) (hidden : List String) (word : String) : Reply :=
  let required := requiredCandidates c g hidden word
  let found :=
    if !required.isEmpty then required
    else (completionOrder c).flatMap fun f =>
      if g.changed f.name then [] else nameCandidates hidden word f
  ⟨found, if found.length = 1 ∧ (found.headD "").endsWith "=" then Directive.noSpace
    else Directive.noFileComp⟩

/-- The reply about the hidden command itself, which reads no flags: the names of its flags
for a word starting with `-`, else nothing. -/
def selfReply (d : Bool) (word : String) : Reply :=
  let c := Command.complete d
  if "-".isPrefixOf word && !word.toList.contains '=' then
    ⟨(completionOrder c).flatMap (nameCandidates [] word), Directive.noFileComp⟩
  else ⟨[], 0⟩

/-- The reply for a positional argument of a command whose flags read as `g`, or for the value
of `flag` when flags are still read; the truth says whether the hidden command was named by
the search `help` makes, and by which name. -/
def argumentReply (c : Command) (g : Given) (hidden : List String) (word : String)
    (flag : Option Flag) (flagCompletion : Bool) : Reply × Option Bool :=
  let (found, directive) : List String × Nat :=
    if flag.isSome then ([], 0)
    else
      let subs := if g.args.isEmpty then commandCandidates c word else []
      let directive := if g.args.isEmpty ∧ !c.listed.isEmpty then Directive.noFileComp else 0
      (subs ++ requiredCandidates c g hidden word, directive)
  if flag.isSome && flagCompletion then (⟨found, directive⟩, none)
  else match c with
    | .help =>
      match findCommand true g.args with
      | (d, _, none) =>
        let called := match d with
          | .complete desc => some desc
          | _ => none
        (⟨found ++ commandCandidates d word, Directive.noFileComp⟩, called)
      | (_, _, some _) => (⟨found, Directive.noFileComp⟩, none)
    | .completion | .script _ => (⟨found, Directive.noFileComp⟩, none)
    | _ => (⟨found, directive⟩, none)

/-- The number of positional arguments when the flags of `args` read. -/
def argCount (c : Command) (args : List String) : Option Nat :=
  match parseFlags c.flags args with
  | .ok g => some g.args.length
  | .error _ => none

/-- The reply for a command found by the search, the words after it and the word being typed,
and whether the search `help` makes named the hidden command, and by which name. -/
def replyFor (c : Command) (args : List String) (word : String) : Reply × Option Bool :=
  let t := valueTarget c args word
  match parseFlags c.flags t.args with
  | .error _ => (⟨[], 0⟩, none)
  | .ok g =>
    -- a `--` already given makes the one added count as an argument
    let flagCompletion :=
      match argCount c (t.args ++ ["--"]) with
      | some n => n ≤ g.args.length
      | none => true
    if t.unknown && flagCompletion then (⟨[], 0⟩, none)
    else if g.changed "help" || g.changed "version" then (⟨[], Directive.noFileComp⟩, none)
    else
      let hidden := hiddenFlags c g
      let word := t.word
      if t.flag.isNone && "-".isPrefixOf word && !word.toList.contains '=' && flagCompletion then
        (flagNameReply c g hidden word, none)
      else argumentReply c g hidden word t.flag flagCompletion

/-- The reply to a completion request whose words are `args` (at least one), and whether
descriptions are given: `descriptions` says how the hidden command was called, and a search
that names it again decides anew. -/
def completionReply (descriptions : Bool) (args : List String) : Reply × Bool :=
  let word := args.getLast?.getD ""
  let before := args.dropLast
  match findCommand true before with
  | (_, _, some _) => (⟨[], 0⟩, descriptions)
  | (.complete d, _, none) => (selfReply d word, d)
  | (c, rest, none) =>
    let (r, called) := replyFor c rest word
    (r, called.getD descriptions)

/-- A candidate as the answer gives it: without its description when none are given, then
only its first line, without the blanks around it. -/
def candidateLine (descriptions : Bool) (candidate : String) : String :=
  let cs := candidate.toList
  let cs := if descriptions then cs else cs.takeWhile (· ≠ '\t')
  Text.trimBlank (String.ofList (cs.takeWhile (· ≠ '\n')))

/-- The answer to a completion request: a line for each candidate, the directive after a
colon, and a line naming the directives. -/
def completionAnswer (descriptions : Bool) (args : List String) : String :=
  let (r, descriptions) := completionReply descriptions args
  String.join (r.candidates.map fun c => candidateLine descriptions c ++ "\n") ++
    ":" ++ toString r.directive ++ "\n" ++
    "Completion ended with directive: " ++ Directive.names r.directive ++ "\n"

end Decimation.Cli
