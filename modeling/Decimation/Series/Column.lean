/-!
# Columns

A column is a named sequence of floats or of booleans; the name is a string of bytes, since
one read from a file need not be UTF-8. Wherever a float is wanted, a boolean
widens `false` to `0` and `true` to `1`; the same encoding as small integers is what
`smallInts?` gives. The empty column without a name is a float column.

The main statements: `size_take` (taking rows gives one value per row asked for) and
`floatAt_take` (the value at a taken row is the value at the row it was taken from).
-/

namespace Decimation

/-- The element type of a column. -/
inductive ColumnKind where
  | float64
  | bool
  deriving DecidableEq, Repr

namespace ColumnKind

/-- The name of a kind. -/
def name : ColumnKind → String
  | float64 => "float64"
  | bool => "bool"

/-- The name of a kind code: `1` is `float64`, `2` is `bool`, any other code is unknown. -/
def codeName (code : UInt8) : String :=
  if code = 1 then float64.name else if code = 2 then bool.name else "unknown"

end ColumnKind

/-- The values a column holds. -/
inductive Values where
  | floats (vs : Array Float)
  | bools (vs : Array Bool)

/-- A named sequence of values of one kind. -/
structure Column where
  name : ByteArray
  values : Values

/-- A boolean as a float: `false` is `0`, `true` is `1`. -/
def widen (b : Bool) : Float := if b then 1 else 0

/-- Booleans widened to floats, after `dst`. -/
def appendWidened (dst : Array Float) (bs : Array Bool) : Array Float := dst ++ bs.map widen

namespace Column

/-- The empty float column without a name. -/
def empty : Column := ⟨ByteArray.empty, .floats #[]⟩

/-- A float column. -/
def ofFloats (name : ByteArray) (vs : Array Float) : Column := ⟨name, .floats vs⟩

/-- A boolean column. -/
def ofBools (name : ByteArray) (vs : Array Bool) : Column := ⟨name, .bools vs⟩

/-- The element type. -/
def kind (c : Column) : ColumnKind :=
  match c.values with
  | .floats _ => .float64
  | .bools _ => .bool

/-- The column holds booleans. -/
def isBool (c : Column) : Bool := c.kind == .bool

/-- The number of values. -/
def size (c : Column) : Nat :=
  match c.values with
  | .floats vs => vs.size
  | .bools vs => vs.size

/-- The values as floats, booleans widened. -/
def toFloats (c : Column) : Array Float :=
  match c.values with
  | .floats vs => vs
  | .bools vs => vs.map widen

/-- The booleans of a boolean column. -/
def bools? (c : Column) : Option (Array Bool) :=
  match c.values with
  | .floats _ => none
  | .bools vs => some vs

/-- The booleans of a boolean column as small integers, `0` or `1`. -/
def smallInts? (c : Column) : Option (Array Int) :=
  c.bools?.map (Array.map fun b => if b then 1 else 0)

/-- The value at row `i` as a float; `0` past the end. -/
def floatAt (c : Column) (i : Nat) : Float :=
  match c.values with
  | .floats vs => vs.getD i 0
  | .bools vs => widen (vs.getD i false)

/-- The column of the values at the given rows, in the order given; the kind and name stay. -/
def take (c : Column) (rows : List Nat) : Column :=
  match c.values with
  | .floats vs => ⟨c.name, .floats (rows.map (fun r => vs.getD r 0)).toArray⟩
  | .bools vs => ⟨c.name, .bools (rows.map (fun r => vs.getD r false)).toArray⟩

@[simp]
theorem size_take (c : Column) (rows : List Nat) : (c.take rows).size = rows.length := by
  cases c with
  | mk n v => cases v <;> simp [take, size]

@[simp]
theorem kind_take (c : Column) (rows : List Nat) : (c.take rows).kind = c.kind := by
  cases c with
  | mk n v => cases v <;> simp [take, kind]

@[simp]
theorem name_take (c : Column) (rows : List Nat) : (c.take rows).name = c.name := by
  cases c with
  | mk n v => cases v <;> simp [take]

theorem floatAt_take (c : Column) (rows : List Nat) (j : Nat) (h : j < rows.length) :
    (c.take rows).floatAt j = c.floatAt (rows.get ⟨j, h⟩) := by
  cases c with
  | mk n v =>
    cases v <;> simp [take, floatAt, Array.getD, h]

end Column

end Decimation
