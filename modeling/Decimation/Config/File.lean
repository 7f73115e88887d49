import Decimation.Config.Basic
import Decimation.Yaml.Decode
import Decimation.Yaml.Document
import Decimation.Yaml.Input
import Decimation.Word
/-!
# Configuration files

A configuration file is a YAML document such as

    algorithm: lttb
    width: 1000
    x_range:
      start: 0
      end: 3600

The file is UTF-8, or UTF-16 after a byte-order mark (`Yaml.Input`). Only the first document
of the stream is read, and a stream with none gives the empty configuration. The document is a mapping of the keys `algorithm` (a string), `width` (an
integer) and `x_range` (a mapping of the float bounds `start` and `end`); any other key, a key
given twice, or a field named twice, is refused. A null value leaves a text unchanged and
unsets the other fields; a null key is skipped.

A width may be written as any integer of the 64-bit range, or as a float, whose fraction is
dropped. A bound may be written as an integer or a float, and may not be NaN. A missing bound
leaves that side open; a missing width counts as zero, which the configuration then refuses.

## Merge keys

A key `<<` brings in the fields of the mapping its value names, or of each mapping of a
sequence, in order; the value must be a mapping, an alias of one, or a sequence of those. It
is taken after the other keys of its mapping, and a field named anywhere in that mapping is
not brought in; of the merged mappings the first to name a field wins (`Yaml.Decode` says
how). A key that is a sequence or a mapping, beside a merge key, traps the decoder.

## Mistakes

A value of the wrong kind for its field does not stop decoding: the field keeps what it held,
the other keys are still read, and the document is refused at the end. Decoding stops at once
where the document is refused outright or the decoder traps.

## Aliases

An alias is decoded as the node it names; an alias met again while its own node is being
decoded refuses the document, and so does a document in which almost every decoding step
comes from aliases.
-/

namespace Decimation

/-- The bounds of an x-range as a file gives them. -/
structure FileRange where
  start : Option Float
  stop : Option Float

/-- The range the bounds give: a missing one is open. -/
def FileRange.range (r : FileRange) : XRange :=
  ⟨r.start.getD (-posInfinity), r.stop.getD posInfinity⟩

/-- A configuration as a file gives it, before it is checked. The algorithm's name is a
string of bytes, which a `!!binary` value need not make UTF-8. -/
structure FileConfig where
  algorithm : List UInt8
  width : Option Int
  xRange : Option FileRange

namespace FileConfig

/-- The configuration of an empty file. -/
def empty : FileConfig := ⟨[], none, none⟩

/-- The width, or zero when none is given. -/
def widthOrZero (c : FileConfig) : Int := c.width.getD 0

/-- The options the file sets besides the width: the algorithm when it is named, and the
range when one is given that bounds something. -/
def options (c : FileConfig) : List (Option ConfigOption) :=
  (if c.algorithm.isEmpty then [] else [some (.algorithmName c.algorithm)]) ++
    match c.xRange with
    | some r => if r.range.unbounded then [] else [some (.xRange r.range)]
    | none => []

/-- The checked configuration the file describes. -/
def config (c : FileConfig) : Except ConfigError Config := Config.build c.widthOrZero c.options

end FileConfig

namespace Yaml

/-- A record a mapping fills: the configuration or the bounds of a range. -/
inductive Record where
  | config (c : FileConfig)
  | range (r : FileRange)

/-- The fields of a record. -/
def Record.fields : Record → List String
  | .config _ => ["algorithm", "width", "x_range"]
  | .range _ => ["start", "end"]

namespace Decode

/-- The integer of a value: one of the signed 64-bit range, or a float up to `2^63` with its
fraction dropped. -/
def asInt : Value → Option Int
  | .int i => some i
  | .float f => if f ≤ 9223372036854775808.0 then some (truncToInt64 f).toInt else none
  | _ => none

/-- The float of a value: a float, or an integer rounded to the nearest one. -/
def asFloat : Value → Option Float
  | .int i => some (Float.ofInt i)
  | .uint n => some (Float.ofNat n)
  | .float f => some f
  | _ => none

mutual

/-- Decodes the node at place `id` as a width that was `cur`: none for null. -/
def width (doc : Document) : Nat → Nat → Option Int → Decode (Option Int)
  | 0, _, _ => refuse "nesting too deep"
  | fuel + 1, id, cur => do
    step
    match doc.get id with
    | .alias _ target => viaAlias id (width doc fuel target cur)
    | .scalar tag _ s =>
      let (_, v) ← scalar tag s
      match v with
      | .null => return none
      | _ =>
        match asInt v with
        | some i => return some i
        | none =>
          mistake
          return cur
    | .sequence .. =>
      mistake
      return cur
    | .mapping _ pairs =>
      if ← uniqueKeys doc pairs then mistake
      return cur

/-- Decodes the node at place `id` as a bound that was `cur`: none for null. -/
def bound (doc : Document) : Nat → Nat → Option Float → Decode (Option Float)
  | 0, _, _ => refuse "nesting too deep"
  | fuel + 1, id, cur => do
    step
    match doc.get id with
    | .alias _ target => viaAlias id (bound doc fuel target cur)
    | .scalar tag _ s =>
      let (_, v) ← scalar tag s
      match v with
      | .null => return none
      | _ =>
        match asFloat v with
        | some f => return some f
        | none =>
          mistake
          return cur
    | .sequence .. =>
      mistake
      return cur
    | .mapping _ pairs =>
      if ← uniqueKeys doc pairs then mistake
      return cur

/-- Decodes the node at place `id` as an x-range, filling `cur` when one is set already:
none for null. A mapping tagged `!!null` cannot be a range. -/
def range (doc : Document) : Nat → Nat → Option FileRange → Decode (Option FileRange)
  | 0, _, _ => refuse "nesting too deep"
  | fuel + 1, id, cur => do
    step
    match doc.get id with
    | .alias _ target => viaAlias id (range doc fuel target cur)
    | .scalar tag _ s =>
      let (_, v) ← scalar tag s
      match v with
      | .null => return none
      | _ =>
        mistake
        return cur
    | .sequence .. =>
      mistake
      return cur
    | .mapping tag pairs =>
      if !(← uniqueKeys doc pairs) then return cur
      if tag = "!!null" then
        mistake
        return cur
      match ← fields doc fuel pairs (.range (cur.getD ⟨none, none⟩)) with
      | .range r => return some r
      | .config _ => return cur

/-- Decodes the node at place `id` into a record: a mapping fills its fields, null leaves it
as it is. -/
def record (doc : Document) : Nat → Nat → Record → Decode Record
  | 0, _, _ => refuse "nesting too deep"
  | fuel + 1, id, r => do
    step
    match doc.get id with
    | .alias _ target => viaAlias id (record doc fuel target r)
    | .scalar tag _ s =>
      let (_, v) ← scalar tag s
      match v with
      | .null => return r
      | _ =>
        mistake
        return r
    | .sequence .. =>
      mistake
      return r
    | .mapping _ pairs =>
      if ← uniqueKeys doc pairs then fields doc fuel pairs r else return r

/-- Fills the fields of a record from the pairs of a mapping, in order, and then from its
merge key. A name that a merge under way set aside is skipped, and any other is set aside;
an unknown name, or a field named twice, is a mistake. -/
def fields (doc : Document) : Nat → Array (Nat × Nat) → Record → Decode Record
  | 0, _, _ => refuse "nesting too deep"
  | fuel + 1, pairs, r => do
    let outer := (← get).merged
    modify fun d => { d with merged := none }
    let mut names := outer
    let mut r := r
    let mut done : List String := []
    let mut mergeValue : Option Nat := none
    for (k, v) in pairs do
      if isMergeKey doc k then
        mergeValue := some v
      else
        match ← text doc fuel k with
        | none => pure ()
        | some key =>
          let name := Text.lossyText key
          let mut fresh := true
          if let some ns := names then
            if ns.any (Value.sameKey (.bytes key)) then fresh := false
            else names := some (.bytes key :: ns)
          if fresh then
            if !r.fields.contains name || done.contains name then mistake
            else
              done := name :: done
              r ← setField doc fuel name v r
    modify fun d => { d with merged := names }
    match mergeValue with
    | some m => merge doc fuel pairs m r
    | none => return r

/-- Brings the mappings of the value at place `m` of a merge key into a record, where
`parent` holds the pairs of the mapping with the merge key. -/
def merge (doc : Document) : Nat → Array (Nat × Nat) → Nat → Record → Decode Record
  | 0, _, _, _ => refuse "nesting too deep"
  | fuel + 1, parent, m, r => do
    let outer := (← get).merged
    if outer.isNone then setAside doc fuel parent
    let r ← match doc.get m with
      | .sequence _ items => do
        let mut r := r
        for item in items do
          mergeable doc item
          r ← record doc fuel item r
        pure r
      | _ => do
        mergeable doc m
        record doc fuel m r
    if outer.isNone then modify fun d => { d with merged := none }
    return r

/-- Sets the field `name` of a record from the node at place `v`. -/
def setField (doc : Document) : Nat → String → Nat → Record → Decode Record
  | 0, _, _, _ => refuse "nesting too deep"
  | fuel + 1, name, v, .config c =>
    match name with
    | "algorithm" => do
      match ← text doc fuel v with
      | some t => return .config { c with algorithm := t }
      | none => return .config c
    | "width" => do return .config { c with width := ← width doc fuel v c.width }
    | "x_range" => do return .config { c with xRange := ← range doc fuel v c.xRange }
    | _ => return .config c
  | fuel + 1, name, v, .range r =>
    match name with
    | "start" => do return .range { r with start := ← bound doc fuel v r.start }
    | "end" => do return .range { r with stop := ← bound doc fuel v r.stop }
    | _ => return .range r

end

end Decode

end Yaml

open Yaml in
/-- The configuration a document gives; a document with a mistake is refused. -/
def FileConfig.ofDocument (doc : Document) : Except Halt FileConfig := do
  let n := doc.nodes.size + 2
  let fuel := 8 * n * n
  let (r, d) ← (Decode.record doc fuel doc.root (.config FileConfig.empty)).run Decoder.init
  if d.mistakes > 0 then throw (.refused "the document does not fit a configuration")
  match r with
  | .config c => return c
  | .range _ => throw (.refused "the document did not give a configuration")

/-- The configuration the bytes of a file give, before it is checked; see the module header.
The reader refuses the stream when it decodes a character that is not allowed or bytes that
encode none (`Yaml.Stream.refuses`), and a decoding that traps gives the trap. -/
def readFileConfig (bytes : List UInt8) : Except ConfigError FileConfig := do
  let stream := Yaml.Stream.ofBytes bytes
  let (doc, demand) := Yaml.Document.first stream.chars
  let doc ← doc.mapError .fileSyntax
  if stream.refuses demand then throw (.fileSyntax "the stream holds bytes that are not allowed")
  match doc with
  | none => return FileConfig.empty
  | some d =>
    let c ← match FileConfig.ofDocument d with
      | .ok c => pure c
      | .error (.refused e) => throw (.fileSyntax e)
      | .error (.trap t) => throw (.trap t)
    if let some r := c.xRange then
      if (r.start.map Float.isNaN).getD false || (r.stop.map Float.isNaN).getD false then
        throw .fileNaNBound
    return c

/-- The configuration a text gives, read as the bytes of its UTF-8 encoding. -/
def parseFileConfig (text : String) : Except ConfigError FileConfig :=
  readFileConfig text.toUTF8.toList

/-- The checked configuration a file gives. -/
def loadConfig (text : String) : Except ConfigError Config := do
  (← parseFileConfig text).config

end Decimation
