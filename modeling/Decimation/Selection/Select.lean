import Decimation.Selection.Lttb
import Decimation.Selection.Nth
/-!
# Selection by algorithm

`Algorithm.select` runs an algorithm on a series; `selectByCode` first resolves a one-byte
code and fails with `unknownAlgorithm` when it names none.
-/

namespace Decimation

/-- The indices an algorithm keeps of the series `xs`, `ys` for `nOut` output points. -/
def Algorithm.select : Algorithm → Array Float → Array Float → Int → Except SelectError (List Nat)
  | .lttb => Decimation.lttb
  | .nth => Decimation.nth

/-- The algorithm with a code, or the failure for a code that names none. -/
def algorithmOfCode (c : UInt8) : Except SelectError Algorithm :=
  match Algorithm.ofCode? c with
  | some a => .ok a
  | none => .error (.unknownAlgorithm c)

/-- Runs the algorithm with code `c`. -/
def selectByCode (c : UInt8) (xs ys : Array Float) (nOut : Int) :
    Except SelectError (List Nat) := do
  let a ← algorithmOfCode c
  a.select xs ys nOut

end Decimation
