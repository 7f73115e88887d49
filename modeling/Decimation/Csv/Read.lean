import Decimation.Text.Blank
import Decimation.Text.Utf8
/-!
# Reading comma-separated records

A document is a string of bytes, read line by line. A line ends after `\n`; `\r\n` counts as
`\n`, and a `\r` at the very end of the document is dropped. Lines that are empty are skipped
between records. Fields are strings of bytes too: bytes that encode no UTF-8 character stay
as they are.

A record is a line of fields separated by commas. Blank characters at the start of a field
are skipped (bytes that encode no character are not blank). A field that then starts with `"` is quoted: it runs to the next `"` that is not
doubled, may span lines, and must be followed by a comma or the end of the line; `""` inside
stands for one `"`. Any other field runs to the next comma or the end of the line and may not
hold a `"`. Every record must have as many fields as the first.

A failure names the line and the column (counted in bytes from one) where it was found, and
the line where its record started when that differs.
-/

namespace Decimation.Csv

/-- What is wrong at the place a failure names. -/
inductive Fault where
  /-- a `"` inside a field that is not quoted -/
  | bareQuote
  /-- a quoted field that is not closed, or is followed by something other than a comma -/
  | quote
  /-- a record with another number of fields than the first -/
  | fieldCount
  deriving DecidableEq, Repr

/-- The text of a fault. -/
def Fault.text : Fault → String
  | .bareQuote => "bare \" in non-quoted-field"
  | .quote => "extraneous or missing \" in quoted-field"
  | .fieldCount => "wrong number of fields"

/-- A failure to read a record, with where it was found. -/
structure ParseError where
  startLine : Nat
  line : Nat
  column : Nat
  fault : Fault
  deriving DecidableEq, Repr

/-- The text of a failure. -/
def ParseError.text (e : ParseError) : String :=
  if e.fault = .fieldCount then s!"record on line {e.line}: " ++ e.fault.text
  else if e.startLine ≠ e.line then
    s!"record on line {e.startLine}; parse error on line {e.line}, column {e.column}: " ++ e.fault.text
  else s!"parse error on line {e.line}, column {e.column}: " ++ e.fault.text

/-- The byte of `\n`. -/
def newline : UInt8 := 10

/-- The byte of `\r`. -/
def carriageReturn : UInt8 := 13

/-- The byte of `"`. -/
def quoteByte : UInt8 := 34

/-- The byte of `,`. -/
def comma : UInt8 := 44

/-- How many bytes at the front of `bs` encode blank characters. -/
def blankPrefix : List UInt8 → Nat
  | [] => 0
  | b0 :: rest =>
    match Text.firstItem b0 rest with
    | (.char c, k) => if Text.isBlank (Char.ofNat c) then k + 1 + blankPrefix (rest.drop k) else 0
    | (.stray _, _) => 0
termination_by bs => bs.length
decreasing_by
  simp only [List.length_drop, List.length_cons]
  omega

/-- A line as read: `\r\n` at its end becomes `\n`. -/
def endLine (line : List UInt8) : List UInt8 :=
  match line.reverse with
  | a :: b :: rest => if a = newline ∧ b = carriageReturn then rest.reverse ++ [newline] else line
  | _ => line

/-- The lines of a document, each with its `\n` except perhaps the last, whose final `\r` is
dropped. `acc` holds the current line reversed. -/
def splitLines : List UInt8 → List UInt8 → List (List UInt8)
  | [], [] => []
  | [], a :: rest => if a = carriageReturn then [rest.reverse] else [(a :: rest).reverse]
  | c :: rest, acc =>
    if c = newline then endLine ((newline :: acc).reverse) :: splitLines rest []
    else splitLines rest (c :: acc)

/-- The lines not yet read, and how many have been read. -/
structure Cursor where
  rest : List (List UInt8)
  read : Nat

/-- A line holds nothing but perhaps its `\n`. -/
def isEmptyLine (line : List UInt8) : Bool := line.isEmpty || line == [newline]

/-- The first line that is not empty and the cursor after it. -/
def nextLine : Cursor → Option (List UInt8 × Cursor)
  | ⟨[], _⟩ => none
  | ⟨l :: ls, n⟩ => if isEmptyLine l then nextLine ⟨ls, n + 1⟩ else some (l, ⟨ls, n + 1⟩)
termination_by c => c.rest.length

/-- The line without its final `\n`. -/
def dropNewline (line : List UInt8) : List UInt8 :=
  if line.getLast? = some newline then line.dropLast else line

/-- Where a record is being read: its first line, the line of the current place, the column
of the current place, and the fields so far. -/
structure Place where
  startLine : Nat
  line : Nat
  column : Nat

mutual

/-- Reads the fields of a record from the start of a field on. At most `fuel` steps. -/
def readFields : Nat → List UInt8 → Cursor → Place → Array (List UInt8) →
    Except ParseError (Array (List UInt8) × Cursor)
  | 0, _, cur, _, fields => .ok (fields, cur)
  | fuel + 1, line, cur, p, fields =>
    let nb := blankPrefix line
    let blank := line.take nb
    let line := line.drop nb
    let col :=
      if line.isEmpty then p.column + blank.length - (if blank.getLast? = some newline then 1 else 0)
      else p.column + blank.length
    let p := { p with column := col }
    match line with
    | b :: rest =>
      if b = quoteByte then readQuoted fuel rest cur { p with column := col + 1 } fields []
      else readBare fuel line cur p fields
    | [] => readBare fuel line cur p fields

/-- Reads a field that is not quoted, from its first byte on. At most `fuel` steps. -/
def readBare : Nat → List UInt8 → Cursor → Place → Array (List UInt8) →
    Except ParseError (Array (List UInt8) × Cursor)
  | 0, _, cur, _, fields => .ok (fields, cur)
  | fuel + 1, line, cur, p, fields =>
    let field := line.takeWhile (· ≠ comma)
    let after := line.dropWhile (· ≠ comma)
    let body := if after.isEmpty then dropNewline field else field
    match body.idxOf? quoteByte with
    | some j => .error ⟨p.startLine, cur.read, p.column + j, .bareQuote⟩
    | none =>
      let fields := fields.push body
      match after with
      | _ :: rest => readFields fuel rest cur { p with column := p.column + field.length + 1 } fields
      | [] => .ok (fields, cur)

/-- Reads the rest of a quoted field whose bytes so far are `text`. At most `fuel` steps. -/
def readQuoted : Nat → List UInt8 → Cursor → Place → Array (List UInt8) → List UInt8 →
    Except ParseError (Array (List UInt8) × Cursor)
  | 0, _, cur, _, fields, _ => .ok (fields, cur)
  | fuel + 1, line, cur, p, fields, text =>
    match line.idxOf? quoteByte with
    | some i =>
      let piece := line.take i
      let line := line.drop (i + 1)
      let col := p.column + piece.length + 1
      let text := text ++ piece
      match line with
      | b :: rest =>
        if b = quoteByte then
          readQuoted fuel rest cur { p with column := col + 1 } fields (text ++ [quoteByte])
        else if b = comma then readFields fuel rest cur { p with column := col + 1 } (fields.push text)
        else if b = newline ∧ rest.isEmpty then .ok (fields.push text, cur)
        else .error ⟨p.startLine, cur.read, col - 1, .quote⟩
      | [] => .ok (fields.push text, cur)
    | none =>
      if line.isEmpty then .error ⟨p.startLine, p.line, p.column, .quote⟩
      else
        let text := text ++ line
        let col := p.column + line.length
        match cur.rest with
        | l :: ls =>
          let p := if l.isEmpty then { p with column := col } else { p with line := p.line + 1, column := 1 }
          readQuoted fuel l ⟨ls, cur.read + 1⟩ p fields text
        | [] => readQuoted fuel [] ⟨[], cur.read + 1⟩ { p with column := col } fields text

end

/-- The records of the document after the cursor, checked against `width` fields once the
first record has set it. At most `fuel` records. -/
def readRecords (steps : Nat) : Nat → Cursor → Option Nat →
    Except ParseError (List (List (List UInt8)))
  | 0, _, _ => .ok []
  | fuel + 1, cur, width => do
    match nextLine cur with
    | none => return []
    | some (line, cur) =>
      let start := cur.read
      let (fields, cur) ← readFields steps line cur ⟨start, start, 1⟩ #[]
      if let some w := width then
        if fields.size ≠ w then throw ⟨start, start, 1, .fieldCount⟩
      let rest ← readRecords steps fuel cur (some (width.getD fields.size))
      return fields.toList :: rest

/-- The records of a document; see the module header. -/
def readAll (doc : List UInt8) : Except ParseError (List (List (List UInt8))) :=
  let lines := splitLines doc []
  readRecords (2 * doc.length + 2 * lines.length + 2) (lines.length + 1) ⟨lines, 0⟩ none

end Decimation.Csv
