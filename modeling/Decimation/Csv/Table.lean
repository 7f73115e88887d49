import Decimation.Csv.Read
import Decimation.Csv.Write
import Decimation.Series.Frame
import Decimation.Decimal.Read
import Decimation.Text.Case
/-!
# Frames as comma-separated text

A frame is read from a document whose first record names the columns (blank characters
around each name are dropped) and whose other records are rows. Names and cells are strings of
bytes; a cell with bytes that encode no character is no number. There must be at least two
columns. The first column holds numbers; any other column whose cells, without surrounding
blanks and in lower case, are all `true` or `false` holds booleans, each read from the cell as
it stands (so `True ` or `tRuE` reads as false); every other cell is a number read from the
cell without surrounding blanks. A frame is written back as a header record of the column
names and one record per row, numbers in general notation and booleans as `true` or `false`.
-/

namespace Decimation

/-- Why a document does not hold a frame. -/
inductive CsvError where
  /-- the records cannot be read -/
  | records (e : Csv.ParseError)
  /-- the document holds no record -/
  | empty
  /-- the header names fewer than two columns -/
  | tooFewColumns (n : Nat)
  /-- the cell of this row (counted from one, the header included) and column is no number -/
  | badNumber (row : Nat) (column cell : List UInt8) (e : Decimal.ReadError)
  /-- the columns do not form a frame -/
  | frame (e : FrameError)

namespace CsvError

/-- The message of a failure. -/
def message : CsvError → String
  | records e => "cannot read csv: " ++ e.text
  | empty => "csv input is empty"
  | tooFewColumns n => s!"csv needs at least an x and a y column, got {n}"
  | badNumber row column cell e =>
    s!"row {row} column " ++ Text.quoteBytes column ++ ": " ++ e.reportBytes "ParseFloat" cell
  | frame e => Failure.message e

/-- The classes of a failure: only a frame failure has any. -/
def classes : CsvError → List ErrorClass
  | frame e => Failure.classes e
  | _ => []

instance : Failure CsvError where
  message := message
  classes := classes

end CsvError

/-- A cell reads as a truth value once blanks are dropped and letters lowered. A byte that
encodes no character is read as the replacement character, which is neither blank nor a
letter. -/
def isTruthCell (cell : List UInt8) : Bool :=
  let t := Text.lower (Text.trimBlank (Text.lossyText cell))
  t == "true" || t == "false"

/-- The cell of column `c` in a row. -/
def cellAt (row : List (List UInt8)) (c : Nat) : List UInt8 := row.getD c []

/-- The number a cell holds: bytes that encode no character are malformed. -/
def readCell (cell : List UInt8) : Except Decimal.ReadError Float :=
  if Text.isValidUtf8 cell then Decimal.readFloat (Text.lossyText cell) else .error .malformed

/-- The column `c` named `name` from the rows: booleans when it is not the first column and
every cell is a truth value, numbers otherwise. -/
def readColumn (rows : List (List (List UInt8))) (c : Nat) (name : List UInt8) :
    Except CsvError Column :=
  if c > 0 && !rows.isEmpty && rows.all (fun r => isTruthCell (cellAt r c)) then
    .ok (Column.ofBools ⟨name.toArray⟩
      (rows.map fun r => (Decimal.readBool (Text.lossyText (cellAt r c))).getD false).toArray)
  else do
    let vals ← (rows.zip (List.range rows.length)).mapM fun (r, i) =>
      let cell := Text.trimBlankBytes (cellAt r c)
      match readCell cell with
      | .ok v => .ok v
      | .error e => .error (.badNumber (i + 2) name cell e)
    return Column.ofFloats ⟨name.toArray⟩ vals.toArray

namespace Frame

/-- The frame held by a document; see the module header. -/
def ofCsv (doc : List UInt8) : Except CsvError Frame := do
  let records ← (Csv.readAll doc).mapError .records
  match records with
  | [] => throw .empty
  | header :: rows =>
    if header.length < 2 then throw (.tooFewColumns header.length)
    let cols ← (header.zip (List.range header.length)).mapM fun (name, c) =>
      readColumn rows c (Text.trimBlankBytes name)
    (Frame.ofColumns cols).mapError .frame

/-- The text of a cell of a column. -/
def cellText (c : Column) (row : Nat) : String :=
  match c.values with
  | .bools vs => if vs.getD row false then "true" else "false"
  | .floats vs => floatText (vs.getD row 0)

/-- The document of a frame: the header record and one record per row. -/
def toCsv (f : Frame) : List UInt8 :=
  Csv.recordBytes (f.columns.map (·.name.toList)) ++
    ((List.range f.rows).map fun r =>
      Csv.recordBytes (f.columns.map fun c => (cellText c r).toUTF8.toList)).flatten

end Frame

end Decimation
