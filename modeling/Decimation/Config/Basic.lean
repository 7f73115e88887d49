import Decimation.Config.Names
import Decimation.Options
/-!
# Downsampling configurations

A configuration fixes the number of points to keep, the algorithm that picks them, and an
optional x-range that rows must fall in first. It starts as LTTB without a range; options
then change it one after another, an absent option is skipped, and the first option that fails
stops the build. The result
is checked last: the width must be positive and at least what the algorithm needs, and a range
must be valid.

The main statement: `build_ok_valid` (a configuration that builds passes its check).
-/

namespace Decimation

/-- How rows are reduced: to `width` points picked by `algorithm`, among the rows whose x lies
in `range` when one is given. -/
structure Config where
  width : Int
  algorithm : Algorithm
  range : Option XRange

/-- A change to a configuration. -/
inductive ConfigOption where
  /-- the algorithm with this code -/
  | algorithmCode (code : UInt8)
  /-- the algorithm with this name, a string of bytes -/
  | algorithmName (name : List UInt8)
  /-- restrict the rows to this x-range -/
  | xRange (r : XRange)

namespace ConfigOption

/-- The configuration after the option, or why the option is refused. -/
def apply (o : ConfigOption) (c : Config) : Except ConfigError Config :=
  match o with
  | algorithmCode code =>
    match Algorithm.ofCode? code with
    | some a => .ok { c with algorithm := a }
    | none => .error (.unknownAlgorithmCode code)
  | algorithmName name => do
    let a ← parseAlgorithm name
    return { c with algorithm := a }
  | xRange r =>
    match r.validate with
    | .ok _ => .ok { c with range := some r }
    | .error e => .error (.range e)

end ConfigOption

namespace Config

/-- Checks the width against the algorithm, then the range. -/
def validate (c : Config) : Except ConfigError Unit :=
  if c.width ≤ 0 then .error (.widthNotPositive c.width)
  else if c.width < c.algorithm.minOutput then .error (.widthBelowMinimum c.algorithm c.width)
  else match c.range with
    | some r => r.validate.mapError .range
    | none => .ok ()

/-- The options applied in order to LTTB with the given width and no range, skipping absent
ones and stopping at the first that is refused, and the result checked. -/
def build (width : Int) (opts : List (Option ConfigOption)) : Except ConfigError Config := do
  let c ← applyOptions ConfigOption.apply opts ⟨width, .lttb, none⟩
  c.validate
  return c

/-- `lttb(width=10)`, or `nth(width=5, x=[0, 5))` with a range. -/
def text (c : Config) : String :=
  match c.range with
  | some r => c.algorithm.name ++ s!"(width={c.width}, x=" ++ r.text ++ ")"
  | none => c.algorithm.name ++ s!"(width={c.width})"

theorem build_ok_valid (width : Int) (opts : List (Option ConfigOption)) (c : Config)
    (h : build width opts = .ok c) : c.validate = .ok () := by
  simp only [build, bind, Except.bind] at h
  split at h
  · cases h
  · split at h
    · cases h
    · rename_i u hv
      cases h
      cases u
      exact hv

end Config

end Decimation
