import Decimation.Yaml.Lexer.Fetch
/-!
# Events of a YAML stream

The grammar turns tokens into events: the start and end of the stream, of each document and
of each collection, scalars and aliases. It is a machine whose state says what may come next,
with a stack of the states to return to when a nested node ends.

* A document is implicit (content right away) or explicit (`---`, after any directives). The
  directives of a document may name `%YAML` once, and only version 1.1, and each tag handle
  once; the handles `!` and `!!` stand for `!` and `tag:yaml.org,2002:` unless a directive
  names them.
* A node may carry an anchor and a tag, in either order; the tag's handle must be known. With
  nothing after them, the node is an empty scalar.
* An entry of a block sequence, a key or a value with nothing after it is an empty scalar, as
  is a missing value. A block sequence may stand at the indentation of the mapping key that
  holds it.
* A flow sequence may hold single pairs `key: value`, each a mapping of its own.
-/

namespace Decimation.Yaml

/-- An event of a stream. An empty anchor or tag is none. -/
inductive Event where
  | streamStart
  | streamEnd
  | documentStart (explicit : Bool)
  | documentEnd (explicit : Bool)
  | alias (name : String)
  | scalar (anchor tag text : String) (style : ScalarStyle)
  | sequenceStart (anchor tag : String) (flow : Bool)
  | sequenceEnd
  | mappingStart (anchor tag : String) (flow : Bool)
  | mappingEnd
  deriving Repr, Inhabited

/-- What the grammar expects next. -/
inductive Expect where
  | streamStart
  | implicitDocumentStart
  | documentStart
  | documentContent
  | documentEnd
  | blockNode
  | blockNodeOrIndentlessSequence
  | flowNode
  | blockSequenceFirstEntry
  | blockSequenceEntry
  | indentlessSequenceEntry
  | blockMappingFirstKey
  | blockMappingKey
  | blockMappingValue
  | flowSequenceFirstEntry
  | flowSequenceEntry
  | flowSequenceEntryMappingKey
  | flowSequenceEntryMappingValue
  | flowSequenceEntryMappingEnd
  | flowMappingFirstKey
  | flowMappingKey
  | flowMappingValue
  | flowMappingEmptyValue
  | finished
  deriving DecidableEq, Repr, Inhabited

/-- The state of the grammar. -/
structure Grammar where
  lexer : Lexer
  expect : Expect
  stack : List Expect
  /-- the tag handles of the current document and their prefixes -/
  handles : List (String × String)

/-- The grammar at the start of a stream. -/
def Grammar.init (chars : Array Char) : Grammar := ⟨Lexer.init chars, .streamStart, [], []⟩

/-- Reading events, which may refuse the stream with a reason. -/
abbrev Parse := StateT Grammar (Except String)

/-- The handles every document knows. -/
def defaultHandles : List (String × String) := [("!", "!"), ("!!", "tag:yaml.org,2002:")]

/-- The empty scalar that stands for a missing node. -/
def Event.empty : Event := .scalar "" "" "" .plain

namespace Parse

/-- Runs a step of the lexer. -/
def lex {α : Type} (m : Lex α) : Parse α := fun g => do
  let (a, l) ← m.run g.lexer
  return (a, { g with lexer := l })

/-- The next token. -/
def peek : Parse Token := lex Lex.peekToken

/-- Takes the next token. -/
def skip : Parse Unit := lex Lex.skipToken

/-- Expects `e` next. -/
def goto (e : Expect) : Parse Unit := modify fun g => { g with expect := e }

/-- Returns to the state on top of the stack. -/
def pop : Parse Unit := modify fun g =>
  match g.stack with
  | e :: rest => { g with expect := e, stack := rest }
  | [] => g

/-- Remembers `e` to return to. -/
def pushState (e : Expect) : Parse Unit := modify fun g => { g with stack := e :: g.stack }

/-- The tag a handle and suffix stand for. -/
def tagOf (handle suffix : String) : Parse String := do
  if handle.isEmpty then return suffix
  match (← get).handles.lookup handle with
  | some pfx =>
    let tag := pfx ++ suffix
    if tag.isEmpty then throw "found undefined tag handle"
    return tag
  | none => throw "found undefined tag handle"

/-- Reads the anchor and tag before a node, in either order: the anchor, the tag, and the
token after them. -/
def properties : Parse (String × String × Token) := do
  match ← peek with
  | .anchor a =>
    skip
    match ← peek with
    | .tag h s =>
      skip
      let tag ← tagOf h s
      return (a, tag, ← peek)
    | t => return (a, "", t)
  | .tag h s =>
    skip
    let tag ← tagOf h s
    match ← peek with
    | .anchor a =>
      skip
      return (a, tag, ← peek)
    | t => return ("", tag, t)
  | t => return ("", "", t)

/-- A node: in block context when `block`, where a block sequence may stand without
indentation when `indentless`. -/
def node (block indentless : Bool) : Parse Event := do
  match ← peek with
  | .alias name =>
    pop
    skip
    return .alias name
  | _ =>
    let (anchor, tag, t) ← properties
    match t with
    | .blockEntry =>
      if indentless then
        goto .indentlessSequenceEntry
        return .sequenceStart anchor tag false
      else if !anchor.isEmpty || !tag.isEmpty then
        pop
        return .scalar anchor tag "" .plain
      else throw "did not find expected node content"
    | .scalar text style =>
      pop
      skip
      return .scalar anchor tag text style
    | .flowSequenceStart =>
      goto .flowSequenceFirstEntry
      return .sequenceStart anchor tag true
    | .flowMappingStart =>
      goto .flowMappingFirstKey
      return .mappingStart anchor tag true
    | .blockSequenceStart =>
      if block then
        goto .blockSequenceFirstEntry
        return .sequenceStart anchor tag false
      else if !anchor.isEmpty || !tag.isEmpty then
        pop
        return .scalar anchor tag "" .plain
      else throw "did not find expected node content"
    | .blockMappingStart =>
      if block then
        goto .blockMappingFirstKey
        return .mappingStart anchor tag false
      else if !anchor.isEmpty || !tag.isEmpty then
        pop
        return .scalar anchor tag "" .plain
      else throw "did not find expected node content"
    | _ =>
      if !anchor.isEmpty || !tag.isEmpty then
        pop
        return .scalar anchor tag "" .plain
      else throw "did not find expected node content"

/-- An entry of a block sequence, or its end. -/
def blockSequenceEntry (first : Bool) : Parse Event := do
  if first then
    let _ ← peek
    skip
  match ← peek with
  | .blockEntry =>
    skip
    match ← peek with
    | .blockEntry | .blockEnd =>
      goto .blockSequenceEntry
      return Event.empty
    | _ =>
      pushState .blockSequenceEntry
      node true false
  | .blockEnd =>
    pop
    skip
    return .sequenceEnd
  | _ => throw "did not find expected '-' indicator"

/-- An entry of a block sequence written at the indentation of its key, or its end. -/
def indentlessSequenceEntry : Parse Event := do
  match ← peek with
  | .blockEntry =>
    skip
    match ← peek with
    | .blockEntry | .key | .value | .blockEnd =>
      goto .indentlessSequenceEntry
      return Event.empty
    | _ =>
      pushState .indentlessSequenceEntry
      node true false
  | _ =>
    pop
    return .sequenceEnd

/-- A key of a block mapping, or its end. -/
def blockMappingKey (first : Bool) : Parse Event := do
  if first then
    let _ ← peek
    skip
  match ← peek with
  | .key =>
    skip
    match ← peek with
    | .key | .value | .blockEnd =>
      goto .blockMappingValue
      return Event.empty
    | _ =>
      pushState .blockMappingValue
      node true true
  | .blockEnd =>
    pop
    skip
    return .mappingEnd
  | _ => throw "did not find expected key"

/-- A value of a block mapping. -/
def blockMappingValue : Parse Event := do
  match ← peek with
  | .value =>
    skip
    match ← peek with
    | .key | .value | .blockEnd =>
      goto .blockMappingKey
      return Event.empty
    | _ =>
      pushState .blockMappingKey
      node true true
  | _ =>
    goto .blockMappingKey
    return Event.empty

/-- The token is the end of a flow sequence. -/
def Token.isFlowSequenceEnd : Token → Bool
  | .flowSequenceEnd => true
  | _ => false

/-- The token is the end of a flow mapping. -/
def Token.isFlowMappingEnd : Token → Bool
  | .flowMappingEnd => true
  | _ => false

/-- An entry of a flow sequence, or its end. -/
def flowSequenceEntry (first : Bool) : Parse Event := do
  if first then
    let _ ← peek
    skip
  let mut t ← peek
  if !Token.isFlowSequenceEnd t then
    if !first then
      match t with
      | .flowEntry =>
        skip
        t ← peek
      | _ => throw "did not find expected ',' or ']'"
    match t with
    | .key =>
      goto .flowSequenceEntryMappingKey
      skip
      return .mappingStart "" "" true
    | _ =>
      if !Token.isFlowSequenceEnd t then
        pushState .flowSequenceEntry
        return ← node false false
  pop
  skip
  return .sequenceEnd

/-- The key of a pair inside a flow sequence. -/
def flowSequenceEntryMappingKey : Parse Event := do
  match ← peek with
  | .value | .flowEntry | .flowSequenceEnd =>
    skip
    goto .flowSequenceEntryMappingValue
    return Event.empty
  | _ =>
    pushState .flowSequenceEntryMappingValue
    node false false

/-- The value of a pair inside a flow sequence. -/
def flowSequenceEntryMappingValue : Parse Event := do
  match ← peek with
  | .value =>
    skip
    match ← peek with
    | .flowEntry | .flowSequenceEnd => pure ()
    | _ =>
      pushState .flowSequenceEntryMappingEnd
      return ← node false false
  | _ => pure ()
  goto .flowSequenceEntryMappingEnd
  return Event.empty

/-- A key of a flow mapping, or its end. -/
def flowMappingKey (first : Bool) : Parse Event := do
  if first then
    let _ ← peek
    skip
  let mut t ← peek
  if !Token.isFlowMappingEnd t then
    if !first then
      match t with
      | .flowEntry =>
        skip
        t ← peek
      | _ => throw "did not find expected ',' or '\x7d'"
    match t with
    | .key =>
      skip
      match ← peek with
      | .value | .flowEntry | .flowMappingEnd =>
        goto .flowMappingValue
        return Event.empty
      | _ =>
        pushState .flowMappingValue
        return ← node false false
    | _ =>
      if !Token.isFlowMappingEnd t then
        pushState .flowMappingEmptyValue
        return ← node false false
  pop
  skip
  return .mappingEnd

/-- A value of a flow mapping; `empty` when its key stood alone. -/
def flowMappingValue (empty : Bool) : Parse Event := do
  let t ← peek
  if empty then
    goto .flowMappingKey
    return Event.empty
  match t with
  | .value =>
    skip
    match ← peek with
    | .flowEntry | .flowMappingEnd => pure ()
    | _ =>
      pushState .flowMappingKey
      return ← node false false
  | _ => pure ()
  goto .flowMappingKey
  return Event.empty

/-- Reads the directives before a document into its handles; the handles `!` and `!!` are
added unless named. -/
def directives : Nat → Bool → Parse Unit
  | 0, _ => pure ()
  | fuel + 1, versionSeen => do
    match ← peek with
    | .versionDirective major minor =>
      if versionSeen then throw "found duplicate %YAML directive"
      if major ≠ 1 ∨ minor ≠ 1 then throw "found incompatible YAML document"
      skip
      directives fuel true
    | .tagDirective handle pfx =>
      if ((← get).handles.lookup handle).isSome then throw "found duplicate %TAG directive"
      modify fun g => { g with handles := g.handles ++ [(handle, pfx)] }
      skip
      directives fuel versionSeen
    | _ =>
      modify fun g => { g with
        handles := g.handles ++ defaultHandles.filter (fun d => (g.handles.lookup d.1).isNone) }

/-- Passes the `...` markers before a document. -/
def documentEnds : Nat → Parse Token
  | 0 => peek
  | fuel + 1 => do
    match ← peek with
    | .documentEnd =>
      skip
      documentEnds fuel
    | t => return t

/-- The start of a document, or the end of the stream; `implicit` when a document may start
without `---`. -/
def documentStart (implicit : Bool) : Parse Event := do
  let fuel := (← get).lexer.chars.size + 8
  let t ← if implicit then peek else documentEnds fuel
  match t with
  | .streamEnd =>
    goto .finished
    skip
    return .streamEnd
  | .versionDirective .. | .tagDirective .. | .documentStart =>
    directives fuel false
    match ← peek with
    | .documentStart =>
      pushState .documentEnd
      goto .documentContent
      skip
      return .documentStart true
    | _ => throw "did not find expected <document start>"
  | _ =>
    if implicit then
      directives fuel false
      pushState .documentEnd
      goto .blockNode
      return .documentStart false
    else
      directives fuel false
      match ← peek with
      | .documentStart =>
        pushState .documentEnd
        goto .documentContent
        skip
        return .documentStart true
      | _ => throw "did not find expected <document start>"

/-- The content of an explicit document: a node, or an empty scalar when a marker follows. -/
def documentContent : Parse Event := do
  match ← peek with
  | .versionDirective .. | .tagDirective .. | .documentStart | .documentEnd | .streamEnd =>
    pop
    return Event.empty
  | _ => node true false

/-- The end of a document, explicit with `...`. -/
def documentEnd : Parse Event := do
  let explicit ← match ← peek with
    | .documentEnd => do
      skip
      pure true
    | _ => pure false
  modify fun g => { g with handles := [] }
  goto .documentStart
  return .documentEnd explicit

/-- The start of the stream. -/
def streamStart : Parse Event := do
  match ← peek with
  | .streamStart =>
    goto .implicitDocumentStart
    skip
    return .streamStart
  | _ => throw "did not find expected <stream-start>"

/-- The next event. -/
def next : Parse Event := do
  if (← get).lexer.ended then throw "no more events"
  match (← get).expect with
  | .streamStart => streamStart
  | .implicitDocumentStart => documentStart true
  | .documentStart => documentStart false
  | .documentContent => documentContent
  | .documentEnd => documentEnd
  | .blockNode => node true false
  | .blockNodeOrIndentlessSequence => node true true
  | .flowNode => node false false
  | .blockSequenceFirstEntry => blockSequenceEntry true
  | .blockSequenceEntry => blockSequenceEntry false
  | .indentlessSequenceEntry => indentlessSequenceEntry
  | .blockMappingFirstKey => blockMappingKey true
  | .blockMappingKey => blockMappingKey false
  | .blockMappingValue => blockMappingValue
  | .flowSequenceFirstEntry => flowSequenceEntry true
  | .flowSequenceEntry => flowSequenceEntry false
  | .flowSequenceEntryMappingKey => flowSequenceEntryMappingKey
  | .flowSequenceEntryMappingValue => flowSequenceEntryMappingValue
  | .flowSequenceEntryMappingEnd =>
    goto .flowSequenceEntry
    return .mappingEnd
  | .flowMappingFirstKey => flowMappingKey true
  | .flowMappingKey => flowMappingKey false
  | .flowMappingValue => flowMappingValue false
  | .flowMappingEmptyValue => flowMappingValue true
  | .finished => throw "no more events"

end Parse

end Decimation.Yaml
