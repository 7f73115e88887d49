import Decimation.Text.Blank
import Decimation.Text.Utf8
/-!
# Writing comma-separated records

Each record is written as its fields separated by commas and ended by `\n`. A field is quoted
when it holds a comma, a quote, `\r` or `\n`, when its first character is blank, or when it is
`\.`; the empty field is never quoted. Inside quotes a `"` is doubled. Fields are strings of
bytes and are written as they are.
-/

namespace Decimation.Csv

/-- The first character of a field is blank. -/
def startsBlank : List UInt8 → Bool
  | [] => false
  | b0 :: rest =>
    match Text.firstItem b0 rest with
    | (.char c, _) => Text.isBlank (Char.ofNat c)
    | (.stray _, _) => false

/-- A field must be written in quotes. -/
def needsQuotes (field : List UInt8) : Bool :=
  !field.isEmpty &&
    (field == "\\.".toUTF8.toList || field.any (fun d => d = 44 || d = 34 || d = 13 || d = 10) ||
      startsBlank field)

/-- The bytes of a field as written. -/
def fieldBytes (field : List UInt8) : List UInt8 :=
  if needsQuotes field then [34] ++ field.flatMap (fun b => if b = 34 then [34, 34] else [b]) ++ [34]
  else field

/-- The bytes of a record, with its line end. -/
def recordBytes (fields : List (List UInt8)) : List UInt8 :=
  ((fields.map fieldBytes).intersperse [44]).flatten ++ [10]

end Decimation.Csv
