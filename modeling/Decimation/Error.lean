/-!
# Classes of failure

Every failure of the library belongs to some of thirteen classes that a caller can test for.
The classes form a forest: an unknown algorithm, an invalid width, an invalid x-range and an
invalid option are invalid configurations; a length mismatch, an empty bucket and a row or
dimension index out of range are precondition violations; a checksum mismatch is an invalid
snapshot. A failure in a class is also in every class above it (`ErrorClass.lineage`).

Each part of the library has its own type of failure causes; `Failure` is what they share: a
message and the classes the failure is in.
-/

namespace Decimation

/-- The classes of failure that a caller can test a failure against. -/
inductive ErrorClass where
  | checksumMismatch
  | unknownAlgorithm
  | invalidWidth
  | invalidRange
  | invalidOption
  | lengthMismatch
  | emptyBucket
  | rowOutOfRange
  | dimensionOutOfRange
  | invalidConfiguration
  | preconditionViolation
  | degenerateInput
  | invalidSnapshot
  deriving DecidableEq, Repr

namespace ErrorClass

/-- The class directly above, if any. -/
def parent? : ErrorClass → Option ErrorClass
  | unknownAlgorithm | invalidWidth | invalidRange | invalidOption => some invalidConfiguration
  | lengthMismatch | emptyBucket | rowOutOfRange | dimensionOutOfRange =>
    some preconditionViolation
  | checksumMismatch => some invalidSnapshot
  | invalidConfiguration | preconditionViolation | degenerateInput | invalidSnapshot => none

/-- A class followed by the classes above it. -/
def lineage (c : ErrorClass) : List ErrorClass :=
  match c.parent? with
  | some p => [c, p]
  | none => [c]

/-- The text that opens the message of a failure tagged with this class; a class below
another repeats its parent's text first. -/
def text : ErrorClass → String
  | invalidConfiguration => "invalid configuration"
  | preconditionViolation => "precondition violation"
  | degenerateInput => "degenerate input"
  | invalidSnapshot => "invalid snapshot"
  | unknownAlgorithm => "invalid configuration: unknown algorithm"
  | invalidWidth => "invalid configuration: invalid width"
  | invalidRange => "invalid configuration: invalid x-range"
  | invalidOption => "invalid configuration: invalid option"
  | lengthMismatch => "precondition violation: x and y lengths differ"
  | emptyBucket => "precondition violation: empty bucket"
  | rowOutOfRange => "precondition violation: row index out of range"
  | dimensionOutOfRange => "precondition violation: dimension index out of range"
  | checksumMismatch => "invalid snapshot: checksum mismatch"

/-- The message of a failure tagged with this class and carrying `detail`. -/
def tag (c : ErrorClass) (detail : String) : String := c.text ++ ": " ++ detail

/-- All classes, most specific first: the order in which a failure's own class is named. -/
def all : List ErrorClass :=
  [checksumMismatch, unknownAlgorithm, invalidWidth, invalidRange, invalidOption,
    lengthMismatch, emptyBucket, rowOutOfRange, dimensionOutOfRange, invalidConfiguration,
    preconditionViolation, degenerateInput, invalidSnapshot]

/-- The name under which a class is reported. -/
def name : ErrorClass → String
  | checksumMismatch => "ChecksumMismatch"
  | unknownAlgorithm => "UnknownAlgorithm"
  | invalidWidth => "InvalidWidth"
  | invalidRange => "InvalidRange"
  | invalidOption => "InvalidOption"
  | lengthMismatch => "LengthMismatch"
  | emptyBucket => "EmptyBucket"
  | rowOutOfRange => "RowOutOfRange"
  | dimensionOutOfRange => "DimensionOutOfRange"
  | invalidConfiguration => "InvalidConfiguration"
  | preconditionViolation => "PreconditionViolation"
  | degenerateInput => "DegenerateInput"
  | invalidSnapshot => "InvalidSnapshot"

end ErrorClass

/-- What every kind of failure offers: its message and the classes it belongs to (closed
upwards: with a class, the classes above it). -/
class Failure (ε : Type) where
  message : ε → String
  classes : ε → List ErrorClass

end Decimation
