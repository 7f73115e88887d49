/-!
# Index encodings

The indices of a snapshot are stored either raw, as one 32-bit word each, or as deltas, each
the difference to the previous index (the first to zero) written as a variable-length number.
Raw has code 1 and delta code 2; every other code names no encoding and is written `Unknown`.
-/

namespace Decimation

/-- How the indices of a snapshot are stored. -/
inductive IndexEncoding where
  | raw
  | delta
  deriving DecidableEq, Repr

namespace IndexEncoding

/-- The one-byte code of an index encoding. -/
def code : IndexEncoding → UInt8
  | raw => 1
  | delta => 2

/-- The encoding with a code, if any. -/
def ofCode? (c : UInt8) : Option IndexEncoding :=
  if c = 1 then some raw else if c = 2 then some delta else none

/-- The name of an encoding. -/
def name : IndexEncoding → String
  | raw => "Raw"
  | delta => "Delta"

/-- The name of the encoding with a code, or `Unknown`. -/
def codeName (c : UInt8) : String :=
  match ofCode? c with
  | some e => e.name
  | none => "Unknown"

theorem ofCode?_code (e : IndexEncoding) : ofCode? e.code = some e := by
  cases e <;> rfl

/-- The encoding a code names has that code. -/
theorem code_of_ofCode? {c : UInt8} {e : IndexEncoding}
    (h : ofCode? c = some e) : e.code = c := by
  unfold ofCode? at h
  split at h
  · cases h; rename_i hc; exact hc.symm
  split at h
  · cases h; rename_i hc; exact hc.symm
  cases h

end IndexEncoding

end Decimation
