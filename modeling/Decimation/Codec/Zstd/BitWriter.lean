/-!
# Writing bit streams

Bits are packed least significant first: the first bit written is the lowest bit of the first
byte. A table description ends with its last bit, padded with zeros to a whole byte
(`BitWriter.padded`). An entropy-coded stream, which is read backward, ends with a marker: a
one bit above its last bit, then zeros to the end of the byte (`BitWriter.closed`), so that a
reader finds the top of the stream as the highest set bit of the last byte.
-/

namespace Decimation.Codec.Zstd

/-- A stream being written: the whole bytes so far, and `count` pending bits held in `acc`. -/
structure BitWriter where
  bytes : ByteArray
  acc : Nat
  count : Nat

namespace BitWriter

/-- The stream with no bits. -/
def empty : BitWriter := ⟨ByteArray.empty, 0, 0⟩

/-- The low `k` bytes of `v`, least significant first. -/
def lowBytes (v k : Nat) : ByteArray :=
  ⟨((List.range k).map fun i => ((v >>> (8 * i)) &&& 255).toUInt8).toArray⟩

/-- Appends the low `n` bits of `v`; the whole bytes among the pending bits move out. -/
def add (w : BitWriter) (v n : Nat) : BitWriter :=
  let acc := w.acc + (v % Nat.pow 2 n) * Nat.pow 2 w.count
  let count := w.count + n
  let k := count / 8
  ⟨w.bytes ++ lowBytes acc k, acc >>> (8 * k), count % 8⟩

/-- The number of bits written. -/
def length (w : BitWriter) : Nat := 8 * w.bytes.size + w.count

/-- The bytes of the stream, its last byte padded with zeros. -/
def padded (w : BitWriter) : ByteArray :=
  if w.count = 0 then w.bytes else w.bytes.push w.acc.toUInt8

/-- The bytes of a backward-read stream: the marker bit added, then padded. -/
def closed (w : BitWriter) : ByteArray := (w.add 1 1).padded

end BitWriter

end Decimation.Codec.Zstd
