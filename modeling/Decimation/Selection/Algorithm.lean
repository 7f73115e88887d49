import Decimation.Text.Blank
import Decimation.Text.Case
/-!
# Selection algorithms

Two algorithms pick the points of a series to keep: *largest triangle three buckets* (`lttb`),
which keeps the first and last points and one point per bucket in between, and *every s-th
point* (`nth`). Each has a one-byte code (1 and 2); every other code names no algorithm and is
written `unknown`. An algorithm is named in text by `lttb` or `nth`, in any case and with
blank characters around it.
-/

namespace Decimation

/-- A point selection algorithm. -/
inductive Algorithm where
  /-- largest triangle three buckets -/
  | lttb
  /-- every s-th point -/
  | nth
  deriving DecidableEq, Repr

namespace Algorithm

/-- The one-byte code of an algorithm. -/
def code : Algorithm → UInt8
  | lttb => 1
  | nth => 2

/-- The algorithm with a given code, if any. -/
def ofCode? (c : UInt8) : Option Algorithm :=
  if c = 1 then some lttb else if c = 2 then some nth else none

/-- The name of an algorithm. -/
def name : Algorithm → String
  | lttb => "lttb"
  | nth => "nth"

/-- The name of the algorithm with a code, or `unknown`. -/
def codeName (c : UInt8) : String :=
  match ofCode? c with
  | some a => a.name
  | none => "unknown"

/-- The algorithm named by a text, ignoring case and surrounding blank characters. -/
def ofName? (s : String) : Option Algorithm :=
  match Text.lower (Text.trimBlank s) with
  | "lttb" => some lttb
  | "nth" => some nth
  | _ => none

/-- The fewest points an algorithm can be asked for: three for `lttb` (both ends and one
bucket), one otherwise. -/
def minOutput : Algorithm → Int
  | lttb => 3
  | nth => 1

/-- `minOutput` by code: a code that names no algorithm needs one point. -/
def codeMinOutput (c : UInt8) : Int :=
  match ofCode? c with
  | some a => a.minOutput
  | none => 1

theorem ofCode?_code (a : Algorithm) : ofCode? a.code = some a := by
  cases a <;> rfl

end Algorithm

end Decimation
