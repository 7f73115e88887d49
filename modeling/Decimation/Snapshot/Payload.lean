import Decimation.Snapshot.Basic
import Decimation.Snapshot.Header
import Decimation.Codec.Varint
/-!
# Snapshot payloads

The payload of a snapshot holds, in order: the length of the name as an unsigned
variable-length number, the name, the bits of the x values and then of the y values (eight
bytes each), and the rows. The raw index encoding writes each row in four bytes; the delta
encoding writes each row's distance from the one before (from zero for the first) as a
variable-length number, and reading adds the distances up modulo `2^64`, taking the sums as
signed 64-bit numbers. Fixed-width numbers follow the header's byte order.

Reading walks the payload from the front, one part after another. Each step checks that the
payload has room for its part before it reads it, and reads through `ByteOrder.readIn`, which
takes that room as a proof, so no read looks past the end. Reading fails at the first part
that the payload is too short for, names that part and the offset where it starts, refuses
bytes left over, and then validates the snapshot.
-/

namespace Decimation

/-- The parts of a payload, as named when one cannot be read. -/
inductive PayloadPart where
  | nameLength
  | name
  | xValues
  | yValues
  | rows
  | rowDelta
  deriving DecidableEq, Repr

/-- The name of a part. -/
def PayloadPart.text : PayloadPart → String
  | .nameLength => "name length"
  | .name => "name"
  | .xValues => "x values"
  | .yValues => "y values"
  | .rows => "indices"
  | .rowDelta => "index delta"

/-- Why a payload does not hold a snapshot. -/
inductive PayloadError where
  /-- the payload ends inside this part, which starts at `pos` -/
  | truncated (part : PayloadPart) (pos : Nat)
  /-- this many bytes are left over -/
  | trailing (n : Nat)
  /-- the snapshot read is not valid -/
  | invalid (e : ValidationError)

namespace PayloadError

/-- The message of a failure. -/
def message : PayloadError → String
  | truncated part pos =>
    ErrorClass.invalidSnapshot.tag ("truncated payload reading " ++ part.text ++ s!" at offset {pos}")
  | trailing n => ErrorClass.invalidSnapshot.tag s!"{n} trailing payload bytes"
  | invalid e => ErrorClass.invalidSnapshot.tag (Failure.message e)

/-- The classes of a failure: an invalid snapshot, and those of an invalid one read. -/
def classes : PayloadError → List ErrorClass
  | invalid e => ErrorClass.invalidSnapshot.lineage ++ Failure.classes e
  | _ => ErrorClass.invalidSnapshot.lineage

instance : Failure PayloadError where
  message := message
  classes := classes

end PayloadError

/-- A natural number below `2^64` read as a signed 64-bit number. -/
def signed64 (n : Nat) : Int := if n < Nat.pow 2 63 then n else (n : Int) - Nat.pow 2 64

/-- The bytes of the rows: four bytes each, or distances as variable-length numbers. -/
def rowBytes (o : ByteOrder) : IndexEncoding → List Int → List UInt8
  | .raw, rows => rows.flatMap fun r => o.bytes 4 (r % (Nat.pow 2 32 : Int)).toNat
  | .delta, rows => (rows.zip (0 :: rows)).flatMap fun (r, p) => Codec.uvarintBytes
    ((r - p) % (Nat.pow 2 64 : Int)).toNat

namespace Snapshot

/-- The payload of a snapshot under the byte order and index encoding. -/
def payload (s : Snapshot) (o : ByteOrder) (enc : IndexEncoding) : ByteArray :=
  ⟨(Codec.uvarintBytes s.name.size ++ s.name.toList ++
    s.xs.toList.flatMap (fun v => o.bytes 8 v.bits.toNat) ++
    s.ys.toList.flatMap (fun v => o.bytes 8 v.bits.toNat) ++
    rowBytes o enc s.rows.toList).toArray⟩

end Snapshot

/-- `count` floats from their bits at `pos`; bytes past the end count as zero. -/
def readFloats (o : ByteOrder) (data : ByteArray) (pos count : Nat) : Array Float64 :=
  ((List.range count).map fun i => ⟨(o.read data (pos + 8 * i) 8).toUInt64⟩).toArray

/-- The `n` bytes at `pos` and the position after them, or the failure to read `part` when the
payload ends before them. -/
def takeBytes (data : ByteArray) (pos n : Nat) (part : PayloadPart) :
    Except PayloadError (ByteArray × Nat) :=
  if pos + n ≤ data.size then .ok (data.extract pos (pos + n), pos + n)
  else .error (.truncated part pos)

/-- The `count` floats whose bits stand at `pos`, and the position after them, or the failure
to read `part` when the payload ends before them. -/
def takeFloats (o : ByteOrder) (data : ByteArray) (pos count : Nat) (part : PayloadPart) :
    Except PayloadError (Array Float64 × Nat) :=
  if h : pos + count * 8 ≤ data.size then
    .ok (((List.finRange count).map fun (i : Fin count) =>
      ⟨(o.readIn data (pos + 8 * i.val) 8 (by omega)).toUInt64⟩).toArray, pos + count * 8)
  else .error (.truncated part pos)

/-- The `count` rows of four bytes at `pos`, and the position after them, or the failure to
read them when the payload ends before them. -/
def takeWords (o : ByteOrder) (data : ByteArray) (pos count : Nat) :
    Except PayloadError (List Int × Nat) :=
  if h : pos + count * 4 ≤ data.size then
    .ok ((List.finRange count).map fun (i : Fin count) =>
      (o.readIn data (pos + 4 * i.val) 4 (by omega) : Int), pos + count * 4)
  else .error (.truncated .rows pos)

/-- `count` rows encoded as distances from `pos` on, after the running sum `sum`; the rows
and the position after them. -/
def readDeltas (data : ByteArray) (pos sum : Nat) : Nat → Except PayloadError (List Int × Nat)
  | 0 => .ok ([], pos)
  | k + 1 =>
    match Codec.readUvarint data pos with
    | none => .error (.truncated .rowDelta pos)
    | some (d, p) => do
      let next := (sum + d) % Nat.pow 2 64
      let (rest, q) ← readDeltas data p next k
      return (signed64 next :: rest, q)

/-- The snapshot in a raw payload under the header's point count, byte order, index encoding
and boolean flag. -/
def parsePayload (raw : ByteArray) (h : Header) : Except PayloadError Snapshot := do
  let o := h.order
  let count := h.count
  let (nameLen, p) ← match Codec.readUvarint raw 0 with
    | some r => pure r
    | none => throw (.truncated .nameLength 0)
  let (name, p) ← takeBytes raw p nameLen .name
  let (xs, p) ← takeFloats o raw p count .xValues
  let (ys, p) ← takeFloats o raw p count .yValues
  let (rows, p) ← match h.encoding with
    | .raw => takeWords o raw p count
    | .delta => readDeltas raw p 0 count
  if p ≠ raw.size then throw (.trailing (raw.size - p))
  let s : Snapshot := ⟨name, xs, ys, h.boolY, rows.toArray⟩
  s.validate.mapError .invalid
  return s

/-! ### Each step, read back -/

/-- A step that gives `v` and the position `q₀` when its bound `c` holds, and an error
otherwise, gives `(b, q)` exactly when the bound holds, `b` is what `v` reads and `q` is `q₀`. -/
theorem dite_ok_eq_ok_iff {α : Type} {c : Prop} [Decidable c] {v : c → α} {v' : α} {q₀ : Nat}
    {e : PayloadError} (hv : ∀ h, v h = v') {b : α} {q : Nat} :
    (if h : c then .ok (v h, q₀) else .error e : Except PayloadError (α × Nat)) = .ok (b, q) ↔
      c ∧ b = v' ∧ q = q₀ := by
  split
  · rename_i h
    rw [hv h]
    constructor
    · intro hok
      cases hok
      exact ⟨h, rfl, rfl⟩
    · rintro ⟨-, rfl, rfl⟩
      rfl
  · rename_i h
    constructor
    · intro hok
      cases hok
    · rintro ⟨h', -⟩
      exact absurd h' h

theorem takeBytes_eq_ok_iff {data : ByteArray} {pos n : Nat} {part : PayloadPart}
    {b : ByteArray} {q : Nat} :
    takeBytes data pos n part = .ok (b, q) ↔
      pos + n ≤ data.size ∧ b = data.extract pos (pos + n) ∧ q = pos + n := by
  rw [takeBytes, ← dite_eq_ite]
  exact dite_ok_eq_ok_iff fun _ => rfl

/-- The floats read inside the payload are those `readFloats` reads. -/
theorem takeFloats_eq_ok_iff {o : ByteOrder} {data : ByteArray} {pos count : Nat}
    {part : PayloadPart} {xs : Array Float64} {q : Nat} :
    takeFloats o data pos count part = .ok (xs, q) ↔
      pos + count * 8 ≤ data.size ∧ xs = readFloats o data pos count ∧ q = pos + count * 8 := by
  unfold takeFloats
  refine dite_ok_eq_ok_iff fun h => ?_
  rw [readFloats]
  congr 1
  apply List.ext_getElem (by simp)
  intro i h₁ h₂
  simp

/-- The rows read inside the payload are the words at their offsets. -/
theorem takeWords_eq_ok_iff {o : ByteOrder} {data : ByteArray} {pos count : Nat}
    {rows : List Int} {q : Nat} :
    takeWords o data pos count = .ok (rows, q) ↔
      pos + count * 4 ≤ data.size ∧
        rows = (List.range count).map (fun i => (o.read data (pos + 4 * i) 4 : Int)) ∧
        q = pos + count * 4 := by
  unfold takeWords
  refine dite_ok_eq_ok_iff fun h => ?_
  apply List.ext_getElem (by simp)
  intro i h₁ h₂
  simp

end Decimation
