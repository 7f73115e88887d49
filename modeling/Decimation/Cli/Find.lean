import Decimation.Cli.Command
import Decimation.Text.Case
/-!
# Finding the command an invocation names

The command is found before any flag is read. The words of the arguments are those that are
neither flags nor the values of flags: an argument starting with `-` is a flag, and a flag
written without `=` that is not a known truth flag is taken to have its value in the next
argument; `--` ends the words. Starting at the tool, the first word that names a subcommand
of the current command selects it, and that word is removed from the arguments; the search
goes on from the subcommand until no word names one.

At the tool itself, a word left over names no command; the failure suggests the commands whose
name is within two edits of it, or starts with it, ignoring case; edits are counted on the
bytes of the UTF-8 encodings.

The hidden command `__complete` (also called `__completeNoDesc`) is a subcommand of the tool
only while the search that runs an invocation, or a completion, is under way; the search that
`help` makes for its topic does not know it.
-/

namespace Decimation.Cli

/-- The argument is a flag that is taken to have its value in the next argument: it starts
with `--` or is `-` and one ASCII character, has no `=`, and is not a known truth flag. -/
def takesNext (flags : List Flag) (arg : String) : Bool :=
  let cs := arg.toList
  if cs.contains '=' then false
  else match cs with
    | '-' :: '-' :: name =>
      match findLong flags (String.ofList name) with
      | some f => f.kind ≠ .bool
      | none => true
    | ['-', c] =>
      if 128 ≤ c.toNat then false
      else match findShort flags c with
        | some f => f.kind ≠ .bool
        | none => true
    | _ => false

/-- The words of the arguments: neither flags nor values of flags, up to `--`. -/
def words (flags : List Flag) : Nat → List String → List String
  | 0, _ => []
  | _ + 1, [] => []
  | fuel + 1, a :: rest =>
    if a = "--" then []
    else if takesNext flags a then words flags fuel rest.tail
    else if !a.isEmpty && !a.startsWith "-" then a :: words flags fuel rest
    else words flags fuel rest

/-- The arguments without the first occurrence of the word `w` that is not a flag value. -/
def dropWord (flags : List Flag) (w : String) : Nat → List String → List String
  | 0, args => args
  | _ + 1, [] => []
  | fuel + 1, a :: rest =>
    if a = "--" then a :: rest
    else if takesNext flags a then
      match rest with
      | v :: rest' => a :: v :: dropWord flags w fuel rest'
      | [] => [a]
    else if !a.startsWith "-" && a = w then rest
    else a :: dropWord flags w fuel rest

/-- The subcommand with this name; the hidden command too when `hidden` is set. -/
def Command.child? (hidden : Bool) (c : Command) (w : String) : Option Command :=
  if hidden ∧ c = .root ∧ (w = "__complete" ∨ w = "__completeNoDesc") then
    some (.complete (w = "__complete"))
  else c.children.find? (·.name = w)

/-- The command the arguments name, starting at `c`, and the arguments left for it. -/
def descend (hidden : Bool) : Nat → Command → List String → Command × List String
  | 0, c, args => (c, args)
  | fuel + 1, c, args =>
    match words c.knownFlags (args.length + 1) args with
    | [] => (c, args)
    | w :: _ =>
      match c.child? hidden w with
      | some d => descend hidden fuel d (dropWord c.knownFlags w (args.length + 1) args)
      | none => (c, args)

/-- The number of single-item edits (insertions, deletions, replacements) that turn one list
into the other. -/
def editDistance {α : Type} [DecidableEq α] (s t : List α) : Nat :=
  let row0 := List.range (t.length + 1)
  let step (prev : List Nat) (a : α) : List Nat :=
    let first := prev.headD 0 + 1
    (t.zip ((prev.zip prev.tail))).foldl (fun (acc : List Nat) (p : α × Nat × Nat) =>
      let (b, diag, up) := p
      let left := acc.headD 0
      let cost := if a = b then diag else min (min up left) diag + 1
      cost :: acc) [first] |>.reverse
  (s.foldl step row0).getLast?.getD 0

/-- The commands of the tool to suggest for a word that names none: the word and the names
are lowered and compared as UTF-8 bytes. -/
def suggestions (w : String) : List String :=
  let lw := (Text.lower w).toUTF8.data.toList
  (Command.root.children.filter fun c => c ≠ .help).filterMap fun c =>
    let ln := (Text.lower c.name).toUTF8.data.toList
    if editDistance lw ln ≤ 2 ∨ lw.isPrefixOf ln then some c.name else none

/-- The command the arguments name and the arguments left for it, or the word that names no
command when the search stops at the tool with a word left; the hidden command is found when
`hidden` is set. -/
def findCommand (hidden : Bool) (args : List String) : Command × List String × Option String :=
  let (c, rest) := descend hidden 3 .root args
  if c = .root then
    match words c.knownFlags (rest.length + 1) rest with
    | w :: _ => (c, rest, some w)
    | [] => (c, rest, none)
  else (c, rest, none)

end Decimation.Cli
