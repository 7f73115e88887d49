/-!
# Tokens of a YAML stream

The lexer cuts a stream into tokens: the markers of the stream, of documents and of
directives, the indicators of block and flow collections, keys and values, anchors, aliases,
tags and scalars. Block collections have no written brackets; the lexer supplies their start
and end from the indentation of the lines.
-/

namespace Decimation.Yaml

/-- How a scalar was written. -/
inductive ScalarStyle where
  | plain
  | singleQuoted
  | doubleQuoted
  | literal
  | folded
  deriving DecidableEq, Repr

/-- A token of a stream. -/
inductive Token where
  | streamStart
  | streamEnd
  /-- a `%YAML` directive with its version -/
  | versionDirective (major minor : Nat)
  /-- a `%TAG` directive naming a handle and the prefix it stands for -/
  | tagDirective (handle pfx : String)
  | documentStart
  | documentEnd
  | blockSequenceStart
  | blockMappingStart
  | blockEnd
  | flowSequenceStart
  | flowSequenceEnd
  | flowMappingStart
  | flowMappingEnd
  /-- the `-` before an item of a block sequence -/
  | blockEntry
  /-- the `,` between entries of a flow collection -/
  | flowEntry
  /-- the start of a key, written `?` or found before a `:` -/
  | key
  /-- the `:` before a value -/
  | value
  | alias (name : String)
  | anchor (name : String)
  /-- a tag as written: its handle (empty for a verbatim tag) and its suffix -/
  | tag (handle suffix : String)
  | scalar (text : String) (style : ScalarStyle)
  deriving Repr, Inhabited

end Decimation.Yaml
