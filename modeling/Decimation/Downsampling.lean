import Decimation.Config.Basic
import Decimation.Series.Frame
import Decimation.Selection.Select
/-!
# Downsampling a frame

Downsampling first keeps the rows whose x lies in the configured range. When no more rows
remain than the width asks for, they are all kept and no algorithm runs. Otherwise the frame
must have x and y columns, and the algorithm picks rows from the x values and the y values
(booleans widened to `0` and `1`); every column is then cut down to the picked rows, keeping
its kind.

The main statement: `select_whole_of_le` (a frame that fits the width is kept whole).
-/

namespace Decimation

/-- Why a frame cannot be downsampled. -/
inductive DownsampleError where
  /-- the configuration is refused -/
  | config (e : ConfigError)
  /-- a frame cannot be built or cut -/
  | frame (e : FrameError)
  /-- the x-range filter is refused -/
  | filter (r : XRange) (e : RangeError)
  /-- downsampling needs x and y columns; the frame has this many -/
  | missingDimensions (count : Nat)
  /-- the algorithm refused the x and y values of a frame with this many rows -/
  | selection (alg : Algorithm) (rows : Nat) (e : SelectError)

namespace DownsampleError

/-- The message: a failure of a part keeps its own, with the context in front. -/
def message : DownsampleError → String
  | config e => Failure.message e
  | frame e => Failure.message e
  | filter r e => "x-range filter " ++ r.text ++ ": " ++ Failure.message e
  | missingDimensions n =>
    ErrorClass.preconditionViolation.tag s!"downsampling needs x and y dimensions, table has {n}"
  | selection a n e => a.name ++ s!" over {n} rows: " ++ Failure.message e

/-- The classes: those of the failing part. -/
def classes : DownsampleError → List ErrorClass
  | config e => Failure.classes e
  | frame e => Failure.classes e
  | filter _ e => Failure.classes e
  | missingDimensions _ => ErrorClass.preconditionViolation.lineage
  | selection _ _ e => Failure.classes e

instance : Failure DownsampleError where
  message := message
  classes := classes

end DownsampleError

/-- The frame left after the x-range filter, and the rows picked from it; no rows are named
when the frame already fits the width and is kept whole. -/
structure Selection where
  frame : Frame
  picked : Option (List Nat)

/-- The frame a selection keeps: the whole frame when no rows are named, else the named rows. -/
def Selection.output (sel : Selection) : Except FrameError Frame :=
  match sel.picked with
  | none => .ok sel.frame
  | some rows => sel.frame.selectRows (rows.map Int.ofNat)

namespace Config

/-- The frame restricted to the configured x-range. -/
def filter (c : Config) (f : Frame) : Except DownsampleError Frame :=
  match c.range with
  | none => .ok f
  | some r => (f.sliceX r).mapError (.filter r)

/-- Picks the rows to keep; see the module header. -/
def select (c : Config) (f : Frame) : Except DownsampleError Selection := do
  c.validate.mapError .config
  let g ← c.filter f
  if (g.rows : Int) ≤ c.width then return ⟨g, none⟩
  if g.dimensions < 2 then throw (.missingDimensions g.dimensions)
  let xs ← (g.dimension 0).mapError .frame
  let ys ← (g.dimension 1).mapError .frame
  let picked ← (c.algorithm.select xs.toFloats ys.toFloats c.width).mapError
    (.selection c.algorithm g.rows)
  return ⟨g, some picked⟩

/-- The frame cut down to the picked rows. -/
def apply (c : Config) (f : Frame) : Except DownsampleError Frame := do
  let s ← c.select f
  match s.picked with
  | none => return s.frame
  | some rows => (s.frame.selectRows (rows.map Int.ofNat)).mapError .frame

/-- A success keeps its value when its error is relabelled. -/
theorem mapError_ok {ε ε' α : Type} (f : ε → ε') (a : α) :
    (Except.ok a : Except ε α).mapError f = .ok a := rfl

theorem select_whole_of_le (c : Config) (f : Frame) (hv : c.validate = .ok ())
    (hr : c.range = none) (hw : (f.rows : Int) ≤ c.width) : c.select f = .ok ⟨f, none⟩ := by
  simp [select, filter, hv, hr, hw, mapError_ok, bind, Except.bind, pure, Except.pure]

end Config

/-- The frame downsampled to `width` rows under the given options. -/
def downsample (f : Frame) (width : Int) (opts : List (Option ConfigOption)) :
    Except DownsampleError Frame := do
  let c ← (Config.build width opts).mapError .config
  c.apply f

/-- The rows of the x and y values to keep: all of them, in order, when they fit the width. -/
def selectIndices (xs ys : Array Float) (width : Int) (opts : List (Option ConfigOption)) :
    Except DownsampleError (List Nat) := do
  let f ← (Frame.ofXY xs ys).mapError .frame
  let c ← (Config.build width opts).mapError .config
  let s ← c.select f
  return s.picked.getD (List.range s.frame.rows)

end Decimation
