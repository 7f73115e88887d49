import Decimation.Yaml.Event
import Decimation.Yaml.Node
import Decimation.Yaml.Resolve
/-!
# The first document of a stream

The nodes of the first document are built from its events. An anchor names its node from the
node's start, so an alias inside the node may name it; a later anchor of the same name
replaces the earlier one for the aliases after it. An alias whose anchor is unknown refuses
the stream. Each node gets its tag as `Node` describes.

Reading stops at the end of the first document: the grammar has then looked at the token
after it, and the lexer has read ahead as far as it needed, but no further. `Document.first`
gives the document (none for a stream without one) and how many characters the lexer asked
for, which the reader's check on the stream depends on.
-/

namespace Decimation.Yaml

/-- The state of building a document. -/
structure Composer where
  grammar : Grammar
  /-- the event read but not yet used -/
  pending : Option Event
  nodes : Array Node
  anchors : List (String × Nat)

/-- Building a document, which may refuse the stream with a reason. -/
abbrev Compose := StateT Composer (Except String)

/-- The tag of a scalar node, from the tag written on it (empty or `!` when none). -/
def scalarTag (tag text : String) (style : ScalarStyle) : String :=
  if tag ≠ "" ∧ tag ≠ "!" then shortTag tag
  else if style ≠ .plain then "!!str"
  else if text = "<<" then "!!merge"
  else plainTag text

/-- The tag of a collection node, from the tag written on it and the default one. -/
def collectionTag (tag default : String) : String :=
  if tag ≠ "" ∧ tag ≠ "!" then shortTag tag else default

namespace Compose

/-- The next event. -/
def peek : Compose Event := do
  match (← get).pending with
  | some e => return e
  | none =>
    let c ← get
    match Parse.next.run c.grammar with
    | .ok (e, g) =>
      set { c with grammar := g, pending := some e }
      return e
    | .error err => throw err

/-- Uses the next event. -/
def take : Compose Event := do
  let e ← peek
  modify fun c => { c with pending := none }
  return e

/-- Adds a node; its place. -/
def add (n : Node) : Compose Nat := do
  let c ← get
  set { c with nodes := c.nodes.push n }
  return c.nodes.size

/-- Replaces the node at place `i`. -/
def setNode (i : Nat) (n : Node) : Compose Unit :=
  modify fun c => { c with nodes := c.nodes.set! i n }

/-- Names the node at place `i` by an anchor, when there is one. -/
def name (anchor : String) (i : Nat) : Compose Unit :=
  if anchor.isEmpty then pure ()
  else modify fun c => { c with anchors := (anchor, i) :: c.anchors }

/-- The event is the end of a sequence. -/
def Event.isSequenceEnd : Event → Bool
  | .sequenceEnd => true
  | _ => false

/-- The event is the end of a mapping. -/
def Event.isMappingEnd : Event → Bool
  | .mappingEnd => true
  | _ => false

/-- Builds the node whose events come next; its place. -/
def node : Nat → Compose Nat
  | 0 => throw "nesting too deep"
  | fuel + 1 => do
    let limit := 4 * (← get).grammar.lexer.chars.size + 16
    match ← peek with
    | .scalar anchor tag text style =>
      let i ← add (.scalar (scalarTag tag text style) style text)
      name anchor i
      let _ ← take
      return i
    | .alias a =>
      match (← get).anchors.lookup a with
      | some target =>
        let _ ← take
        add (.alias a target)
      | none => throw ("unknown anchor '" ++ a ++ "' referenced")
    | .sequenceStart anchor tag _ =>
      let tag := collectionTag tag "!!seq"
      let i ← add (.sequence tag #[])
      name anchor i
      let _ ← take
      let mut items : Array Nat := #[]
      let mut closed := false
      for _ in List.range limit do
        if Event.isSequenceEnd (← peek) then
          closed := true
          break
        items := items.push (← node fuel)
      if !closed then throw "a sequence has no end"
      let _ ← take
      setNode i (.sequence tag items)
      return i
    | .mappingStart anchor tag _ =>
      let tag := collectionTag tag "!!map"
      let i ← add (.mapping tag #[])
      name anchor i
      let _ ← take
      let mut pairs : Array (Nat × Nat) := #[]
      let mut closed := false
      for _ in List.range limit do
        if Event.isMappingEnd (← peek) then
          closed := true
          break
        let k ← node fuel
        let v ← node fuel
        pairs := pairs.push (k, v)
      if !closed then throw "a mapping has no end"
      let _ ← take
      setNode i (.mapping tag pairs)
      return i
    | .streamEnd => throw "attempted to go past the end of stream; corrupted value?"
    | _ => throw "did not find a node"

/-- The first document of the stream. -/
def firstDocument : Compose (Option Document) := do
  match ← take with
  | .streamStart => pure ()
  | _ => throw "did not find the start of the stream"
  match ← peek with
  | .streamEnd => return none
  | .documentStart _ =>
    let _ ← take
    let root ← node (4 * (← get).grammar.lexer.chars.size + 16)
    match ← take with
    | .documentEnd _ => return some ⟨(← get).nodes, root⟩
    | .streamEnd => throw "attempted to go past the end of stream; corrupted value?"
    | _ => throw "did not find the end of the document"
  | _ => throw "did not find a document"

end Compose

/-- The first document of a stream of characters (none when the stream holds no document),
and the number of characters the lexer asked for. -/
def Document.first (chars : Array Char) : Except String (Option Document) × Nat :=
  match Compose.firstDocument.run ⟨Grammar.init chars, none, #[], []⟩ with
  | .ok (doc, c) => (.ok doc, c.grammar.lexer.demand)
  | .error e => (.error e, 0)

end Decimation.Yaml
