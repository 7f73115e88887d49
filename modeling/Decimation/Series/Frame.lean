import Decimation.Error
import Decimation.Series.Column
import Decimation.Series.Range
import Decimation.Text.Quote
/-!
# Frames

A frame is a non-empty list of columns of one length; column 0 holds the x values and column 1
the y values. Rows are taken out of a frame in two ways: by an x-range, keeping in order the
rows whose x value (a boolean widened) the range contains, and by a list of row indices, in the
order given and with repeats.

The invariant that every column has the frame's length is part of the type. The main
statements: `length_sliceX` and `rows_selectRows` give the number of rows of a result.
-/

namespace Decimation

/-- Why a frame cannot be built or a part of it cannot be taken. -/
inductive FrameError where
  /-- a frame needs a column -/
  | noColumns
  /-- column `i` has `rows` rows where the first has `want` -/
  | ragged (i : Nat) (name : ByteArray) (rows want : Nat)
  /-- there is no column `i` among `count` -/
  | dimensionOutOfRange (i : Int) (count : Nat)
  /-- the index at position `pos` names row `row` of a frame with `rows` rows -/
  | rowOutOfRange (pos : Nat) (row : Int) (rows : Nat)

namespace FrameError

/-- The class a failure is tagged with. -/
def errorClass : FrameError → ErrorClass
  | noColumns => .preconditionViolation
  | ragged .. => .lengthMismatch
  | dimensionOutOfRange .. => .dimensionOutOfRange
  | rowOutOfRange .. => .rowOutOfRange

/-- What the failure says beyond its class. -/
def detail : FrameError → String
  | noColumns => "frame needs at least one column"
  | ragged i name rows want =>
    s!"column {i} (" ++ Text.quoteBytes name.toList ++ s!") has {rows} rows, want {want}"
  | dimensionOutOfRange i count => s!"dimension {i}, frame has {count}"
  | rowOutOfRange pos row rows => s!"rows[{pos}]={row}, table has {rows} rows"

instance : Failure FrameError where
  message e := e.errorClass.tag e.detail
  classes e := e.errorClass.lineage

end FrameError

/-- Columns of one length, at least one of them; the first holds the x values. -/
structure Frame where
  columns : List Column
  rows : Nat
  nonempty : columns ≠ []
  uniform : ∀ c ∈ columns, c.size = rows

namespace Frame

/-- The failure for the first column, counted from `i`, whose length is not `want`. -/
def firstRagged (want : Nat) : List Column → Nat → FrameError
  | [], _ => .noColumns
  | c :: cs, i => if c.size = want then firstRagged want cs (i + 1) else .ragged i c.name c.size want

/-- The frame of the given columns: refused without columns, and when a column's length
differs from the first one's (the first such column is named). -/
def ofColumns : List Column → Except FrameError Frame
  | [] => .error .noColumns
  | c :: cs =>
    if h : ∀ d ∈ c :: cs, d.size = c.size then .ok ⟨c :: cs, c.size, List.cons_ne_nil c cs, h⟩
    else .error (firstRagged c.size cs 1)

/-- The frame of a float column `x` and a float column `y`. -/
def ofXY (xs ys : Array Float) : Except FrameError Frame :=
  ofColumns [Column.ofFloats "x".toUTF8 xs, Column.ofFloats "y".toUTF8 ys]

/-- The column of x values. -/
def x (f : Frame) : Column := f.columns.head f.nonempty

/-- The number of columns. -/
def dimensions (f : Frame) : Nat := f.columns.length

/-- Column `i`. -/
def dimension (f : Frame) (i : Int) : Except FrameError Column :=
  if h : 0 ≤ i ∧ i.toNat < f.columns.length then .ok (f.columns.get ⟨i.toNat, h.2⟩)
  else .error (.dimensionOutOfRange i f.columns.length)

/-- The frame of the given rows, which must lie below `f.rows`. -/
def take (f : Frame) (rows : List Nat) : Frame where
  columns := f.columns.map (·.take rows)
  rows := rows.length
  nonempty := by simpa using f.nonempty
  uniform := by simp

/-- The rows whose x value lies in `r`, in order. -/
def rowsIn (f : Frame) (r : XRange) : List Nat :=
  (List.range f.rows).filter (fun i => r.contains (f.x.floatAt i))

/-- The rows whose x value lies in `r`: refused for an invalid range; the frame itself for
`[-Inf, +Inf)`. -/
def sliceX (f : Frame) (r : XRange) : Except RangeError Frame := do
  r.validate
  if r.unbounded then return f
  return f.take (f.rowsIn r)

/-- The first position whose index is no row of a frame with `n` rows, counting from `pos`. -/
def badRow (n : Nat) : List Int → Nat → Option FrameError
  | [], _ => none
  | r :: rs, pos => if 0 ≤ r ∧ r < n then badRow n rs (pos + 1) else some (.rowOutOfRange pos r n)

/-- The rows at the given indices, in the order given; refused at the first index that
names no row. -/
def selectRows (f : Frame) (rows : List Int) : Except FrameError Frame :=
  match badRow f.rows rows 0 with
  | some e => .error e
  | none => .ok (f.take (rows.map Int.toNat))

@[simp]
theorem rows_take (f : Frame) (rows : List Nat) : (f.take rows).rows = rows.length := rfl

theorem length_sliceX (f g : Frame) (r : XRange) (h : f.sliceX r = .ok g) :
    g.rows = if r.unbounded then f.rows else (f.rowsIn r).length := by
  unfold sliceX at h
  cases hv : r.validate with
  | error e => simp [hv] at h; cases h
  | ok u =>
    cases hu : r.unbounded <;> simp [hv, hu] at h <;> cases h <;> simp

theorem rows_selectRows (f g : Frame) (rows : List Int) (h : f.selectRows rows = .ok g) :
    g.rows = rows.length := by
  unfold selectRows at h
  cases hb : badRow f.rows rows 0 with
  | some e => simp [hb] at h
  | none => simp [hb] at h; cases h; simp

end Frame

end Decimation
