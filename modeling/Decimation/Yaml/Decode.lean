import Decimation.Yaml.Node
import Decimation.Yaml.Resolve
import Decimation.Word
/-!
# Decoding documents

Decoding walks the nodes of a document into the values a program asks for. This module holds
what every such walk shares: its state, its steps through aliases, the check for repeated
keys, merge keys, and the decoding of a node as no type in particular, which is how the keys
of a mapping with a merge key are set aside.

## Mistakes, refusals and traps

A node of the wrong kind for its target is a *mistake*: the target keeps what it held, the
walk goes on, and a walk that made a mistake ends refused. Other failures refuse the document
at once: a tag its text does not fit, an alias met inside its own node, a merge of something
other than mappings, a collection as the key of a map. A collection that a merge sets aside,
or looks up among the names it set aside, *traps*: hashing it is a fault of the machine, not a
refusal of the document.

## Merge keys

A mapping's `<<` key is taken after its other keys. Unless a merge is under way already, the
keys of the mapping that holds the `<<` are then set aside, each decoded as no type; each merged
mapping fills only the keys not set aside, and sets aside those it fills. So the mapping's own
keys win over merged ones, and of the merged mappings the first to name a key wins, also for
merges nested in merged mappings. The values decoded meanwhile do not see the names set aside.

## Fuel

Every function takes fuel and refuses when it runs out. A walk goes no deeper than the nodes
of the document, counting each alias as one more, so fuel above twice the number of nodes is
never used up.
-/

namespace Decimation.Yaml

/-- Why a walk stops short of a value: the document is refused, or the machine traps. -/
inductive Halt where
  | refused (reason : String)
  | trap (t : Trap)

/-- Two values are the same key of a hashed set: of one kind and equal, floats compared as
numbers (so NaN is no key's equal, and the two zeros are one key), and strings by their bytes. -/
def Value.sameKey : Value → Value → Bool
  | .null, .null => true
  | .bool a, .bool b => a == b
  | .int a, .int b => a == b
  | .uint a, .uint b => a == b
  | .float a, .float b => a == b
  | .text a, .text b => a == b
  | .text a, .bytes b | .bytes b, .text a => a.toUTF8.toList == b
  | .bytes a, .bytes b => a == b
  | _, _ => false

/-- What a node decodes to as no type in particular, as far as a walk looks at it: a
scalar's value, a sequence, or a mapping, whose keys are all texts or of any kind. -/
inductive Loose where
  | scalar (v : Value)
  | sequence
  | mapping (textKeys : Bool)

/-- A decoded node as the key of a hashed set; a collection traps, named by the type the
runtime gives it. -/
def Loose.key : Loose → Except Trap Value
  | .scalar v => .ok v
  | .sequence => .error (.unhashable "[]interface \x7b\x7d")
  | .mapping true => .error (.unhashable "map[string]interface \x7b\x7d")
  | .mapping false => .error (.unhashable "map[interface \x7b\x7d]interface \x7b\x7d")

/-- The state of a walk: the names set aside by the merge under way, if any, the aliases
being expanded, counts of decoding steps, all of them and those inside aliases, and the
number of mistakes. -/
structure Decoder where
  merged : Option (List Value)
  active : List Nat
  steps : Nat
  aliasSteps : Nat
  aliasDepth : Nat
  mistakes : Nat

/-- The state of a walk that has taken the document itself as its first step. -/
def Decoder.init : Decoder := ⟨none, [], 1, 0, 0, 0⟩

/-- Decoding a document, which may stop short of a value. -/
abbrev Decode := StateT Decoder (Except Halt)

/-- The share of decoding steps that may come from aliases, by the number of steps. -/
def allowedAliasShare (steps : Nat) : Float :=
  if steps ≤ 400000 then 0.99
  else if 4000000 ≤ steps then 0.10
  else 0.99 - 0.89 * (Float.ofNat (steps - 400000) / 3600000.0)

/-- The shape of a merge value that is not mappings. -/
def wantMap : String := "map merge requires map or sequence of maps as the value"

namespace Decode

/-- Refuses the document. -/
def refuse {α : Type} (reason : String) : Decode α := throw (.refused reason)

/-- Records a mistake; the walk goes on. -/
def mistake : Decode Unit := modify fun d => { d with mistakes := d.mistakes + 1 }

/-- Counts a decoding step, refusing a document decoded almost wholly through aliases. -/
def step : Decode Unit := do
  modify fun d => { d with
    steps := d.steps + 1,
    aliasSteps := if d.aliasDepth > 0 then d.aliasSteps + 1 else d.aliasSteps }
  let d ← get
  if d.aliasSteps > 100 && d.steps > 1000 &&
      Float.ofNat d.aliasSteps / Float.ofNat d.steps > allowedAliasShare d.steps then
    refuse "document contains excessive aliasing"

/-- Runs `k` for the node the alias at place `id` names. -/
def viaAlias {α : Type} (id : Nat) (k : Decode α) : Decode α := do
  if (← get).active.contains id then refuse "anchor value contains itself"
  modify fun d => { d with active := id :: d.active, aliasDepth := d.aliasDepth + 1 }
  let r ← k
  modify fun d => { d with active := d.active.erase id, aliasDepth := d.aliasDepth - 1 }
  return r

/-- The tag and value of a scalar. -/
def scalar (tag text : String) : Decode (String × Value) :=
  match scalarValue tag text with
  | .ok r => pure r
  | .error e => refuse e

/-- A decoded node as the key of a hashed set, trapping for a collection. -/
def key (l : Loose) : Decode Value :=
  match l.key with
  | .ok v => pure v
  | .error t => throw (.trap t)

/-- Whether no two keys of a mapping are the same (`Node.keyForm`); a repeated key is a
mistake. -/
def uniqueKeys (doc : Document) (pairs : Array (Nat × Nat)) : Decode Bool := do
  let forms := pairs.toList.map fun p => (doc.get p.1).keyForm
  let rec repeats : List (Nat × String) → Bool
    | [] => false
    | f :: rest => rest.contains f || repeats rest
  if repeats forms then
    mistake
    return false
  return true

/-- The key at place `k` is the merge key: a `<<` tagged `!!merge`, as a plain `<<` is. -/
def isMergeKey (doc : Document) (k : Nat) : Bool :=
  match doc.get k with
  | .scalar tag _ "<<" => tag = "!!merge"
  | _ => false

/-- The node at place `i` is a mapping. -/
def isMapping (doc : Document) (i : Nat) : Bool :=
  match doc.get i with
  | .mapping .. => true
  | _ => false

/-- The tag of the node at place `i`, an alias having the tag of the node it names. -/
def tagAt (doc : Document) (i : Nat) : String :=
  match doc.get i with
  | .scalar tag .. | .sequence tag _ | .mapping tag _ => tag
  | .alias _ target =>
    match doc.get target with
    | .scalar tag .. | .sequence tag _ | .mapping tag _ => tag
    | .alias .. => ""

/-- The keys of a mapping are all texts or merge keys, by their tags. -/
def textKeys (doc : Document) (pairs : Array (Nat × Nat)) : Bool :=
  pairs.all fun p => tagAt doc p.1 = "!!str" || tagAt doc p.1 = "!!merge"

/-- Refuses a merge value at place `i` that is neither a mapping nor an alias of one. -/
def mergeable (doc : Document) (i : Nat) : Decode Unit :=
  match doc.get i with
  | .mapping .. => pure ()
  | .alias _ target => if isMapping doc target then pure () else refuse wantMap
  | _ => refuse wantMap

/-- Decodes the node at place `id` as a string, the bytes of a scalar's text or those its
`!!binary` text stands for: none for null, which leaves a string as it was, and for a
collection, which is a mistake. -/
def text (doc : Document) : Nat → Nat → Decode (Option (List UInt8))
  | 0, _ => refuse "nesting too deep"
  | fuel + 1, id => do
    step
    match doc.get id with
    | .alias _ target => viaAlias id (text doc fuel target)
    | .scalar tag _ s =>
      let (_, v) ← scalar tag s
      match v with
      | .null => return none
      | .bytes bs => return some bs
      | _ => return some s.toUTF8.toList
    | .sequence .. =>
      mistake
      return none
    | .mapping _ pairs =>
      if ← uniqueKeys doc pairs then mistake
      return none

mutual

/-- Decodes the node at place `id` as no type in particular: none when that is a mistake. A
null stands for itself. -/
def loose (doc : Document) : Nat → Nat → Decode (Option Loose)
  | 0, _ => refuse "nesting too deep"
  | fuel + 1, id => do
    step
    match doc.get id with
    | .alias _ target => viaAlias id (loose doc fuel target)
    | .scalar tag _ s =>
      let (_, v) ← scalar tag s
      return some (.scalar v)
    | .sequence _ items =>
      for item in items do
        let _ ← loose doc fuel item
      return some .sequence
    | .mapping _ pairs =>
      if !(← uniqueKeys doc pairs) then return none
      let textual := textKeys doc pairs
      mapPairs doc fuel pairs textual
      return some (.mapping textual)

/-- Decodes a key of a map: as a text when the map's keys are texts. -/
def mapKey (doc : Document) : Nat → Nat → Bool → Decode (Option Loose)
  | 0, _, _ => refuse "nesting too deep"
  | fuel + 1, id, textual =>
    if textual then do
      return (← text doc fuel id).map fun s => .scalar (.bytes s)
    else loose doc fuel id

/-- Fills a map from the pairs of a mapping, its merge key last; `textual` when the map's
keys are texts. The names a merge under way set aside are looked up and added to here, and
hidden from the values. -/
def mapPairs (doc : Document) : Nat → Array (Nat × Nat) → Bool → Decode Unit
  | 0, _, _ => refuse "nesting too deep"
  | fuel + 1, pairs, textual => do
    let outer := (← get).merged
    modify fun d => { d with merged := none }
    let mut names := outer
    let mut mergeValue : Option Nat := none
    for (k, v) in pairs do
      if isMergeKey doc k then
        mergeValue := some v
      else
        match ← mapKey doc fuel k textual with
        | none => pure ()
        | some l =>
          let mut fresh := true
          if let some ns := names then
            let name ← key l
            if ns.any name.sameKey then fresh := false
            else names := some (name :: ns)
          if fresh then
            match l with
            | .scalar _ => pure ()
            | _ => refuse "invalid map key"
            let _ ← loose doc fuel v
    modify fun d => { d with merged := names }
    match mergeValue with
    | some m => mergeMap doc fuel pairs m textual
    | none => pure ()

/-- Decodes the node at place `id` into a map, as a merged mapping is. -/
def intoMap (doc : Document) : Nat → Nat → Bool → Decode Unit
  | 0, _, _ => refuse "nesting too deep"
  | fuel + 1, id, textual => do
    step
    match doc.get id with
    | .alias _ target => viaAlias id (intoMap doc fuel target textual)
    | .mapping _ pairs =>
      if ← uniqueKeys doc pairs then mapPairs doc fuel pairs textual
    | .scalar tag _ s =>
      let (_, v) ← scalar tag s
      match v with
      | .null => pure ()
      | _ => mistake
    | .sequence .. => mistake

/-- Sets aside the keys of the mapping that holds a merge key, each decoded as no type; a
mapping among them adds its own keys as it is decoded. -/
def setAside (doc : Document) : Nat → Array (Nat × Nat) → Decode Unit
  | 0, _ => refuse "nesting too deep"
  | fuel + 1, parent => do
    modify fun d => { d with merged := some [] }
    for (k, _) in parent do
      match ← loose doc fuel k with
      | some l =>
        let name ← key l
        modify fun d => { d with merged := d.merged.map (name :: ·) }
      | none => pure ()

/-- Brings the mappings of the value at place `m` of a merge key into a map, where `parent`
holds the pairs of the mapping with the merge key. -/
def mergeMap (doc : Document) : Nat → Array (Nat × Nat) → Nat → Bool → Decode Unit
  | 0, _, _, _ => refuse "nesting too deep"
  | fuel + 1, parent, m, textual => do
    let outer := (← get).merged
    if outer.isNone then setAside doc fuel parent
    match doc.get m with
    | .sequence _ items =>
      for item in items do
        mergeable doc item
        intoMap doc fuel item textual
    | _ =>
      mergeable doc m
      intoMap doc fuel m textual
    if outer.isNone then modify fun d => { d with merged := none }

end

end Decode

end Decimation.Yaml
