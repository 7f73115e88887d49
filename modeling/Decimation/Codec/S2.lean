import Decimation.Codec.Copy
import Decimation.Codec.Varint
/-!
# S2 blocks

An S2 block (a superset of a Snappy block) starts with the length of its content as an
unsigned variable-length number of at most 32 bits, followed by elements whose two low tag
bits say what they are:

* `0`, a literal: the high six bits hold the length minus one, or 60 to 63 to say that it
  follows in 1 to 4 little-endian bytes;
* `1`, a copy with an 11-bit offset (three high bits of the tag byte, then a byte) and a length
  of 4 to 11. An offset of zero repeats the previous offset; its length bits 5, 6 and 7 then say
  that the length follows in 1, 2 or 3 bytes (plus 4, 260 and 65540);
* `2` and `3`, copies with a 16-bit and a 32-bit offset and a length of 1 to 64.

A copy may not reach before the output's start, no element may run past the input or the
stated length, and the output must come out exactly as long as stated.
-/

namespace Decimation.Codec.S2

/-- The stated content length and the position of the first element. -/
def decodedLength (src : ByteArray) : Option (Nat × Nat) :=
  match readUvarint src 0 with
  | some (v, p) => if v > 0xFFFFFFFF then none else some (v, p)
  | none => none

/-- The state of decoding: input position, last copy offset, output. -/
structure State where
  pos : Nat
  offset : Nat
  out : ByteArray

/-- Decodes one element at `st.pos`; the position always advances. -/
def step (src : ByteArray) (total : Nat) (st : State) : Option State :=
  let tag := byteAt src st.pos
  let s := st.pos
  let avail := src.size
  let room := total - st.out.size
  match tag.toNat % 4 with
  | 0 =>
    let x := tag.toNat / 4
    let (width, litLen) :=
      if x < 60 then (1, x + 1) else (x - 58, leAt src (s + 1) (x - 59) + 1)
    if s + width > avail then none
    else if litLen > room || litLen > avail - (s + width) then none
    else some { st with pos := s + width + litLen, out := appendSlice st.out src (s + width) litLen }
  | 1 =>
    if s + 2 > avail then none
    else
      let lenCode := (tag.toNat / 4) % 8
      let toffset := (tag.toNat / 32) * 256 + (byteAt src (s + 1)).toNat
      let res : Option (Nat × Nat × Nat) :=
        if toffset ≠ 0 then some (s + 2, toffset, lenCode + 4)
        else if lenCode = 5 then
          if s + 3 > avail then none else some (s + 3, st.offset, leAt src (s + 2) 1 + 8)
        else if lenCode = 6 then
          if s + 4 > avail then none else some (s + 4, st.offset, leAt src (s + 2) 2 + 260)
        else if lenCode = 7 then
          if s + 5 > avail then none else some (s + 5, st.offset, leAt src (s + 2) 3 + 65540)
        else some (s + 2, st.offset, lenCode + 4)
      res.bind fun (p, off, len) => copy st p off len room
  | 2 =>
    if s + 3 > avail then none
    else copy st (s + 3) (leAt src (s + 1) 2) (tag.toNat / 4 + 1) room
  | _ =>
    if s + 5 > avail then none
    else copy st (s + 5) (leAt src (s + 1) 4) (tag.toNat / 4 + 1) room
where
  /-- A copy of `len` bytes from `off` back, continuing at `p`. -/
  copy (st : State) (p off len room : Nat) : Option State :=
    if off = 0 || st.out.size < off || len > room then none
    else some ⟨p, off, appendMatch st.out off len⟩

/-- Decodes elements until the input ends; at most `fuel` of them. -/
def decodeElements (src : ByteArray) (total : Nat) : Nat → State → Option State
  | 0, st => some st
  | fuel + 1, st =>
    if st.pos < src.size then
      match step src total st with
      | some st' => decodeElements src total fuel st'
      | none => none
    else some st

/-- The content of an S2 block whose stated length is `total`, with elements from `start`. -/
def decodeBody (src : ByteArray) (total start : Nat) : Option ByteArray :=
  match decodeElements src total src.size ⟨start, 0, ByteArray.empty⟩ with
  | some st => if st.pos ≥ src.size && st.out.size = total then some st.out else none
  | none => none

end Decimation.Codec.S2
