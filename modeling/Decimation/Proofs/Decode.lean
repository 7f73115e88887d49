import Decimation.Proofs.Stored
/-!
# What decoding returns on any bytes

Decoding takes bytes of any length and content. It either fails, and then the failure is in the
class of invalid snapshots, a checksum mismatch included; or it returns a header and a snapshot
that passes validation, with as many points as the header counts, the header's boolean flag and
a name whose hash is the header's name ID (`decode_invalidSnapshot_or_valid`). Such a success
has also read inside its input: the stored payload is exactly the bytes after the header, and the
name and the values fit in the raw payload the header announces.

The failure half holds of every decoding failure, whatever its cause
(`DecodeError.invalidSnapshot_mem_classes`). The success half combines the checks decoding
passes (`Snapshot.decode_eq_ok_iff`) with what parsing a payload makes sure of
(`parsePayload_ok`): it validates the snapshot it builds, and it reads the name and the values
only after checking that the payload has room for them.

No read of decoding reaches past the bytes it reads, on any path, failures included, since no
such read can be written: the header's bytes and numbers are read after its length is checked,
by indexing and by `ByteOrder.readIn`, both of which take the bound as a proof; the raw payload
is read by `readUvarint`, `takeBytes`, `takeFloats` and `takeWords`, each of which checks the
room left first and reads under that check. The compression libraries and
the hash are a parameter: decoding hands them the bytes after the header and the payload they
restore, and uses what they return.
-/

namespace Decimation

open Codec

@[simp]
theorem size_readFloats (o : ByteOrder) (data : ByteArray) (pos count : Nat) :
    (readFloats o data pos count).size = count := by
  simp [readFloats]

/-- A payload that parses is validated last; it holds as many x values as the header counts and
the header's boolean flag, and its name and values lie inside it, after at least one byte of
name length. -/
theorem parsePayload_ok {raw : ByteArray} {h : Header} {s : Snapshot}
    (hp : parsePayload raw h = .ok s) :
    s.validate = .ok () ∧ s.xs.size = h.count ∧ s.boolY = h.boolY ∧
      s.name.size + 16 * h.count < raw.size := by
  obtain ⟨n, p, rows, hn, hfit, -, rfl, hv⟩ := parsePayload_eq_ok_iff.mp hp
  obtain ⟨hp0, -⟩ := readUvarint_bounds hn
  have hsize : (raw.extract p (p + n)).size = n := by
    rw [ByteArray.size_extract]
    omega
  exact ⟨hv, size_readFloats .., rfl, by dsimp only; omega⟩

/-- Every failure of decoding is in the class of invalid snapshots. -/
theorem DecodeError.invalidSnapshot_mem_classes (e : DecodeError) :
    ErrorClass.invalidSnapshot ∈ Failure.classes e := by
  cases e with
  | header e => exact List.mem_of_mem_head? rfl
  | payload e => cases e <;> exact List.mem_of_mem_head? rfl
  -- a checksum mismatch is named first, the invalid snapshot above it second
  | checksum a s => exact List.mem_cons_of_mem _ (List.mem_singleton_self _)
  | _ => exact List.mem_of_mem_head? rfl

theorem Header.headerSize_le_of_parse {d : ByteArray} {h : Header} (hp : Header.parse d = .ok h) :
    headerSize ≤ d.size :=
  (Header.readFrom_of_parse hp).size_le

/-- Decoding any bytes fails with an invalid snapshot, or returns a valid snapshot that agrees
with its header: as many points as counted, the boolean flag, the hash of the name; the stored
payload is the rest of the bytes, and the name and values fit in the raw payload. -/
theorem decode_invalidSnapshot_or_valid (lib : Libraries) (d : ByteArray) :
    (∀ e, Snapshot.decode lib d = .error e → ErrorClass.invalidSnapshot ∈ Failure.classes e) ∧
    ∀ h s, Snapshot.decode lib d = .ok (h, s) →
      Header.parse d = .ok h ∧ d.size = headerSize + h.storedLen ∧
      s.validate = .ok () ∧ s.xs.size = h.count ∧ s.boolY = h.boolY ∧
      lib.hash s.name = h.nameId ∧ s.name.size + 16 * h.count < h.rawLen := by
  refine ⟨fun e _ => e.invalidSnapshot_mem_classes, fun h s hd => ?_⟩
  obtain ⟨hp, hst, -, -, _, _, -, -, hraw, -, hpp, hname⟩ := Snapshot.decode_eq_ok_iff.mp hd
  obtain ⟨hv, hcount, hbool, hfit⟩ := parsePayload_ok hpp
  have hle := Header.headerSize_le_of_parse hp
  rw [ByteArray.size_extract] at hst
  exact ⟨hp, by omega, hv, hcount, hbool, hname, by omega⟩

end Decimation
