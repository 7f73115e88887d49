import Decimation.Yaml.Token
/-!
# Documents as graphs of nodes

A document is an array of nodes and the place of its root. A node is a scalar (its tag, the
style it was written in and its text), a sequence of nodes, a mapping of key and value nodes
in the order written, or an alias, which stands for the node its anchor named. An alias may
name a node that holds it, so nodes refer to each other by their place in the array.

The tag of a node is always known: the written one in short form (`!!` for the core schema),
or else `!!seq`, `!!map`, `!!str` for a quoted or block scalar, `!!merge` for a plain `<<`,
and for another plain scalar the tag its text resolves to.
-/

namespace Decimation.Yaml

/-- A node of a document. -/
inductive Node where
  | scalar (tag : String) (style : ScalarStyle) (text : String)
  | sequence (tag : String) (items : Array Nat)
  | mapping (tag : String) (pairs : Array (Nat × Nat))
  | alias (name : String) (target : Nat)
  deriving Repr, Inhabited

/-- A document: its nodes and the place of its root. -/
structure Document where
  nodes : Array Node
  root : Nat

namespace Node

/-- The kind and text by which two keys of one mapping count as the same: scalars by their
text, aliases by their name, and any two sequences or any two mappings alike. -/
def keyForm : Node → Nat × String
  | .scalar _ _ text => (0, text)
  | .sequence .. => (1, "")
  | .mapping .. => (2, "")
  | .alias name _ => (3, name)

end Node

namespace Document

/-- The node at place `i`. -/
def get (d : Document) (i : Nat) : Node := d.nodes.getD i (.scalar "!!null" .plain "")

end Document

end Decimation.Yaml
