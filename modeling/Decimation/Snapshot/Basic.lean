import Decimation.Series.Frame
import Decimation.Text.Utf8
/-!
# Snapshots

A snapshot records the points that a downsampling kept: their x and y values, whether the y
values were booleans, and the row each point came from in the full series. Its name is a byte
string. A snapshot is valid when its name has at most 64 KiB, the three sequences have one
length, and the rows are strictly increasing and fit in 32 bits.

The values are binary64 numbers kept as their 64 bits (`Float64`), so that a NaN read from
stored bytes keeps its payload, as it does in a float64; a float of a frame enters with the bits
`storedBits` gives it and leaves through `Float.ofBits`.

The main statement: `validate_ok_increasing` (the rows of a valid snapshot strictly increase).
-/

namespace Decimation

/-- The longest name a snapshot may have, in bytes. -/
def maxNameLength : Nat := 65536

/-- The largest row a snapshot can record. -/
def maxRow : Int := 4294967295

/-- The bits a float of a frame has as a float64. Every not-a-number the tool meets in a frame is
the quiet NaN with the payload 1 (the one parsing `NaN` gives), so a NaN gets those bits. -/
def storedBits (v : Float) : UInt64 := if v.isNaN then 0x7FF8000000000001 else v.toBits

/-- A binary64 value as its 64 bits; a NaN keeps its payload. -/
structure Float64 where
  bits : UInt64
  deriving DecidableEq, Repr

namespace Float64

/-- The float64 holding a float of a frame. -/
def ofFloat (v : Float) : Float64 := ⟨storedBits v⟩

/-- The float with these bits; every NaN payload reads as the one NaN of `Float`. -/
def toFloat (v : Float64) : Float := Float.ofBits v.bits

/-! Literals and the arithmetic written in tests go through `Float`. -/

instance : OfScientific Float64 := ⟨fun m s e => ofFloat (OfScientific.ofScientific m s e)⟩

instance (n : Nat) : OfNat Float64 n := ⟨ofFloat (OfNat.ofNat n)⟩

instance : Neg Float64 := ⟨fun v => ofFloat (-v.toFloat)⟩

instance : Div Float64 := ⟨fun a b => ofFloat (a.toFloat / b.toFloat)⟩

end Float64

/-- Downsampled points with the rows they came from. -/
structure Snapshot where
  name : ByteArray
  xs : Array Float64
  ys : Array Float64
  boolY : Bool
  rows : Array Int

/-- Why a snapshot is not valid. -/
inductive ValidationError where
  /-- the name has this many bytes, more than allowed -/
  | nameTooLong (size : Nat)
  /-- the x values, y values and rows differ in number -/
  | lengthMismatch (xs ys rows : Nat)
  /-- more points than a snapshot can count -/
  | tooManyPoints (n : Nat)
  /-- a row below zero or beyond 32 bits -/
  | rowOutOfRange (row : Int)
  /-- the row at this position does not exceed the one before -/
  | notIncreasing (pos : Nat)
  deriving DecidableEq, Repr

namespace ValidationError

/-- The class a failure is tagged with. -/
def errorClass : ValidationError → ErrorClass
  | nameTooLong .. | tooManyPoints .. | notIncreasing .. => .preconditionViolation
  | lengthMismatch .. => .lengthMismatch
  | rowOutOfRange .. => .rowOutOfRange

/-- What the failure says beyond its class. -/
def detail : ValidationError → String
  | nameTooLong n => s!"name of {n} bytes exceeds {maxNameLength}"
  | lengthMismatch xs ys rows => s!"x={xs}, y={ys}, indices={rows}"
  | tooManyPoints n => s!"{n} points exceed the snapshot limit"
  | rowOutOfRange r => s!"index {r} out of range"
  | notIncreasing pos => s!"indices not strictly increasing at position {pos}"

instance : Failure ValidationError where
  message e := e.errorClass.tag e.detail
  classes e := e.errorClass.lineage

end ValidationError

/-- The first fault among rows, the first of them at position `pos` and following `prev`: a
row out of range, or one that does not exceed its predecessor. -/
def firstBadRow : List Int → Option Int → Nat → Option ValidationError
  | [], _, _ => none
  | r :: rs, prev, pos =>
    if r < 0 ∨ r > maxRow then some (.rowOutOfRange r)
    else match prev with
      | some p => if r ≤ p then some (.notIncreasing pos) else firstBadRow rs (some r) (pos + 1)
      | none => firstBadRow rs (some r) (pos + 1)

/-- The rows are strictly increasing, after `prev` when given. -/
def Increasing : List Int → Option Int → Prop
  | [], _ => True
  | r :: rs, prev => (∀ p, prev = some p → p < r) ∧ Increasing rs (some r)

theorem increasing_of_firstBadRow (rs : List Int) (prev : Option Int) (pos : Nat)
    (h : firstBadRow rs prev pos = none) : Increasing rs prev := by
  induction rs generalizing prev pos with
  | nil => trivial
  | cons r rs ih =>
    unfold firstBadRow at h
    split at h
    · cases h
    · cases prev with
      | none => exact ⟨fun p hp => (by cases hp), ih _ _ h⟩
      | some p =>
        simp only at h
        split at h
        · cases h
        · rename_i hlt
          exact ⟨fun q hq => (by cases hq; omega), ih _ _ h⟩

namespace Snapshot

/-- The number of points. -/
def size (s : Snapshot) : Nat := s.xs.size

/-- Checks the name length, the lengths, then the rows in order. -/
def validate (s : Snapshot) : Except ValidationError Unit :=
  let n := s.xs.size
  if s.name.size > maxNameLength then .error (.nameTooLong s.name.size)
  else if s.ys.size ≠ n ∨ s.rows.size ≠ n then .error (.lengthMismatch n s.ys.size s.rows.size)
  else if n > 4294967295 then .error (.tooManyPoints n)
  else match firstBadRow s.rows.toList none 0 with
    | some e => .error e
    | none => .ok ()

theorem validate_ok_increasing (s : Snapshot) (h : s.validate = .ok ()) :
    Increasing s.rows.toList none := by
  cases hb : firstBadRow s.rows.toList none 0 with
  | none => exact increasing_of_firstBadRow _ _ _ hb
  | some e =>
    revert h
    simp only [validate, hb]
    split <;> (try split) <;> (try split) <;> simp

/-- The name of the y column: the snapshot's name, or `y` when it is empty. -/
def yName (s : Snapshot) : ByteArray :=
  if s.name.size = 0 then "y".toUTF8 else s.name

/-- The frame of a float column `x` and the y column; with boolean y values, a y value
stands for `true` unless it equals zero. -/
def table (s : Snapshot) : Except FrameError Frame :=
  let y :=
    if s.boolY then Column.ofBools s.yName (s.ys.map (·.toFloat != 0))
    else Column.ofFloats s.yName (s.ys.map Float64.toFloat)
  Frame.ofColumns [Column.ofFloats "x".toUTF8 (s.xs.map Float64.toFloat), y]

end Snapshot

/-- Why a frame cannot be captured as a snapshot. -/
inductive CaptureError where
  /-- a snapshot needs x and y columns; the frame has this many -/
  | missingDimensions (count : Nat)
  /-- a column or row of the frame is missing -/
  | frame (e : FrameError)
  /-- the snapshot would not be valid -/
  | invalid (e : ValidationError)

namespace CaptureError

/-- The message: a failure of a part keeps its own. -/
def message : CaptureError → String
  | missingDimensions n =>
    ErrorClass.preconditionViolation.tag s!"snapshot needs x and y dimensions, table has {n}"
  | frame e => Failure.message e
  | invalid e => Failure.message e

/-- The classes: those of the failing part. -/
def classes : CaptureError → List ErrorClass
  | missingDimensions _ => ErrorClass.preconditionViolation.lineage
  | frame e => Failure.classes e
  | invalid e => Failure.classes e

instance : Failure CaptureError where
  message := message
  classes := classes

end CaptureError

namespace Snapshot

/-- The snapshot of the given rows of an x and a y column, booleans widened. -/
def ofRows (name : ByteArray) (x y : Column) (rows : List Int) : Snapshot :=
  ⟨name, (rows.map fun r => Float64.ofFloat (x.floatAt r.toNat)).toArray,
    (rows.map fun r => Float64.ofFloat (y.floatAt r.toNat)).toArray, y.isBool, rows.toArray⟩

/-- The snapshot of the given rows of a frame (all rows when none are given): x from the
first column and y from the second, booleans widened, refused at the first row that the frame
lacks and when the result is not valid. -/
def capture (name : ByteArray) (f : Frame) (rows : Option (List Int)) :
    Except CaptureError Snapshot := do
  if f.dimensions < 2 then throw (.missingDimensions f.dimensions)
  let rows := rows.getD ((List.range f.rows).map Int.ofNat)
  let x ← (f.dimension 0).mapError .frame
  let y ← (f.dimension 1).mapError .frame
  match Frame.badRow f.rows rows 0 with
  | some e => throw (.frame e)
  | none =>
    let s := ofRows name x y rows
    s.validate.mapError .invalid
    return s

end Snapshot

end Decimation
