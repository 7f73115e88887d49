import Decimation.Error
import Decimation.Snapshot.ByteOrder
import Decimation.Snapshot.IndexEncoding
import Decimation.Codec.Compression
import Decimation.Selection.Error
import Decimation.Text.Quote
/-!
# Snapshot headers

A stored snapshot opens with a header of 36 bytes: the magic `DCSN`, the format version `1`,
a flag byte (bit 0: numbers are big-endian, bit 1: the y values are booleans), the index
encoding, the compression kind, and then, in the byte order of bit 0, the number of points,
the stored and the raw payload length (32 bits each), and the hashes of the name and of the raw
payload (64 bits each). Flag bits beyond the first two are kept and mean nothing; the
compression byte is read as it stands and judged only when the payload is restored.

`parse_bytes_roundTrip`: parsing reads back every header whose lengths fit their 32 bits, after
which any bytes may follow, and writing a parsed header gives back the bytes it came from.
-/

namespace Decimation

/-- The size of a header in bytes. -/
def headerSize : Nat := 36

/-- The bytes a stored snapshot starts with. -/
def snapshotMagic : List UInt8 := [0x44, 0x43, 0x53, 0x4E]

/-- The format version written and accepted. -/
def formatVersion : UInt8 := 1

/-- The header of a stored snapshot. -/
structure Header where
  flags : UInt8
  encoding : IndexEncoding
  compression : UInt8
  count : Nat
  storedLen : Nat
  rawLen : Nat
  nameId : UInt64
  checksum : UInt64

/-- Why the bytes do not start with a header. -/
inductive HeaderError where
  /-- fewer bytes than a header has -/
  | tooShort (size : Nat)
  /-- the first four bytes are not the magic -/
  | badMagic (bytes : List UInt8)
  /-- a version other than the one accepted -/
  | badVersion (v : UInt8)
  /-- the code names no index encoding -/
  | badEncoding (code : UInt8)

namespace HeaderError

/-- What the failure says beyond its class. -/
def detail : HeaderError → String
  | tooShort n => s!"{n} bytes, header needs {headerSize}"
  | badMagic bs => "bad magic " ++ Text.quoteBytes bs
  | badVersion v => s!"unsupported version {v.toNat}"
  | badEncoding c => "unknown index encoding 0x" ++ hexDigits c.toNat

instance : Failure HeaderError where
  message e := ErrorClass.invalidSnapshot.tag e.detail
  classes _ := ErrorClass.invalidSnapshot.lineage

end HeaderError

namespace Header

/-- The flag for big-endian numbers. -/
def bigEndianFlag : UInt8 := 1

/-- The flag for boolean y values. -/
def boolYFlag : UInt8 := 2

/-- The numbers are big-endian. -/
def bigEndian (h : Header) : Bool := h.flags &&& bigEndianFlag != 0

/-- The y values are booleans. -/
def boolY (h : Header) : Bool := h.flags &&& boolYFlag != 0

/-- The byte order of the numbers. -/
def order (h : Header) : ByteOrder := if h.bigEndian then .big else .little

/-- The header's bytes. -/
def bytes (h : Header) : List UInt8 :=
  let o := h.order
  snapshotMagic ++ [formatVersion, h.flags, h.encoding.code, h.compression] ++
    o.bytes 4 h.count ++ o.bytes 4 h.storedLen ++ o.bytes 4 h.rawLen ++
    o.bytes 8 h.nameId.toNat ++ o.bytes 8 h.checksum.toNat

/-- The header at the start of `data`: refused when too short, without the magic, of another
version, or with an unknown index encoding. Every byte is read after the length check, inside
the data. -/
def parse (data : ByteArray) : Except HeaderError Header :=
  if hs : data.size < headerSize then .error (.tooShort data.size)
  else
    have hs : 36 ≤ data.size := Nat.le_of_not_lt hs
    let magic := [data[0], data[1], data[2], data[3]]
    if magic ≠ snapshotMagic then .error (.badMagic magic)
    else if data[4] ≠ formatVersion then .error (.badVersion data[4])
    else match IndexEncoding.ofCode? data[6] with
      | none => .error (.badEncoding data[6])
      | some enc =>
        let o : ByteOrder := if data[5] &&& bigEndianFlag != 0 then .big else .little
        .ok ⟨data[5], enc, data[7], o.readIn data 8 4 (by omega), o.readIn data 12 4 (by omega),
          o.readIn data 16 4 (by omega), (o.readIn data 20 8 (by omega)).toUInt64,
          (o.readIn data 28 8 (by omega)).toUInt64⟩

/-- What a successful parse of `d` tells about the header `h` it returns: `d` is long enough,
opens with the magic and the version, names a known index encoding, and holds every field of
`h` at its offset, the numbers in the byte order of the flag byte. -/
structure ReadFrom (d : ByteArray) (h : Header) : Prop where
  size_le : headerSize ≤ d.size
  magic : [Codec.byteAt d 0, Codec.byteAt d 1, Codec.byteAt d 2, Codec.byteAt d 3] = snapshotMagic
  version : Codec.byteAt d 4 = formatVersion
  flags : h.flags = Codec.byteAt d 5
  encoding : IndexEncoding.ofCode? (Codec.byteAt d 6) = some h.encoding
  compression : h.compression = Codec.byteAt d 7
  count : h.count = h.order.read d 8 4
  storedLen : h.storedLen = h.order.read d 12 4
  rawLen : h.rawLen = h.order.read d 16 4
  nameId : h.nameId = (h.order.read d 20 8).toUInt64
  checksum : h.checksum = (h.order.read d 28 8).toUInt64

/-- Inside the header, `byteAt` reads the byte itself. -/
theorem byteAt_header {d : ByteArray} (hs : headerSize ≤ d.size) {i : Nat} (hi : i < headerSize) :
    Codec.byteAt d i = d[i] :=
  Codec.byteAt_of_lt (Nat.lt_of_lt_of_le hi hs)

/-- A header that parses was read from the bytes it was parsed from. -/
theorem readFrom_of_parse {d : ByteArray} {h : Header} (hp : parse d = .ok h) : ReadFrom d h := by
  simp only [parse] at hp
  split at hp
  · cases hp
  rename_i hsize
  have hs : headerSize ≤ d.size := Nat.le_of_not_lt hsize
  split at hp
  · cases hp
  rename_i hmagic
  split at hp
  · cases hp
  rename_i hver
  split at hp
  · cases hp
  rename_i enc henc
  cases hp
  -- the numbers are read inside the header
  have hw : ∀ pos w, pos + w ≤ headerSize → pos + w ≤ d.size := fun _ _ hpw => Nat.le_trans hpw hs
  refine ⟨hs, ?_, ?_, (byteAt_header hs (by decide : 5 < headerSize)).symm, ?_,
    (byteAt_header hs (by decide : 7 < headerSize)).symm,
    ByteOrder.readIn_eq_read _ _ _ _ (hw 8 4 (by decide)),
    ByteOrder.readIn_eq_read _ _ _ _ (hw 12 4 (by decide)),
    ByteOrder.readIn_eq_read _ _ _ _ (hw 16 4 (by decide)),
    congrArg Nat.toUInt64 (ByteOrder.readIn_eq_read _ _ _ _ (hw 20 8 (by decide))),
    congrArg Nat.toUInt64 (ByteOrder.readIn_eq_read _ _ _ _ (hw 28 8 (by decide)))⟩
  all_goals
    have hs36 : 36 ≤ d.size := hs
    simp (disch := omega) only [Codec.byteAt_of_lt]
  · exact Classical.not_not.mp hmagic
  · exact Classical.not_not.mp hver
  · exact henc

/-- The first eight bytes of a window from the start. -/
theorem window_lead (d : ByteArray) :
    ByteOrder.window d 0 8 = [Codec.byteAt d 0, Codec.byteAt d 1, Codec.byteAt d 2,
      Codec.byteAt d 3, Codec.byteAt d 4, Codec.byteAt d 5, Codec.byteAt d 6, Codec.byteAt d 7] :=
  rfl

/-- The 36 bytes of a header cut into the lead and the five numbers. -/
theorem window_fields (d : ByteArray) :
    ByteOrder.window d 0 36 = ByteOrder.window d 0 8 ++ (ByteOrder.window d 8 4 ++
      (ByteOrder.window d 12 4 ++ (ByteOrder.window d 16 4 ++
        (ByteOrder.window d 20 8 ++ ByteOrder.window d 28 8)))) := by
  rw [show (36 : Nat) = 8 + 28 from rfl, ByteOrder.window_add,
    show (28 : Nat) = 4 + 24 from rfl, ByteOrder.window_add,
    show (24 : Nat) = 4 + 20 from rfl, ByteOrder.window_add,
    show (20 : Nat) = 4 + 16 from rfl, ByteOrder.window_add,
    show (16 : Nat) = 8 + 8 from rfl, ByteOrder.window_add]

/-- Bytes that open with the magic, the version, a flag byte, a known encoding code and a
compression byte parse to the header holding those and the numbers read after them. -/
theorem parse_of_lead (d : ByteArray) (flags code comp : UInt8) (enc : IndexEncoding)
    (hsize : headerSize ≤ d.size)
    (hlead : ByteOrder.window d 0 8 = snapshotMagic ++ [formatVersion, flags, code, comp])
    (hcode : IndexEncoding.ofCode? code = some enc) :
    let o : ByteOrder := if flags &&& bigEndianFlag != 0 then .big else .little
    parse d = .ok ⟨flags, enc, comp, o.read d 8 4, o.read d 12 4, o.read d 16 4,
      (o.read d 20 8).toUInt64, (o.read d 28 8).toUInt64⟩ := by
  have hs36 : 36 ≤ d.size := hsize
  rw [window_lead] at hlead
  simp (disch := omega) only [Codec.byteAt_of_lt, snapshotMagic, formatVersion,
    List.cons_append, List.nil_append, List.cons.injEq] at hlead
  obtain ⟨h0, h1, h2, h3, h4, h5, h6, h7, -⟩ := hlead
  simp only [parse, h0, h1, h2, h3, h4, h5, h6, h7, hcode, snapshotMagic, formatVersion]
  simp [Nat.not_lt.mpr hsize]

/-- A header whose three lengths fit 32 bits is read back from its bytes, whatever follows. -/
theorem parse_bytes_append (h : Header) (rest : List UInt8) (hc : h.count < UInt32.size)
    (hs : h.storedLen < UInt32.size) (hr : h.rawLen < UInt32.size) :
    parse (h.bytes ++ rest).toByteArray = .ok h := by
  let o := h.order
  let lead := snapshotMagic ++ [formatVersion, h.flags, h.encoding.code, h.compression]
  have hsplit : h.bytes ++ rest = lead ++ (o.bytes 4 h.count ++ (o.bytes 4 h.storedLen ++
      (o.bytes 4 h.rawLen ++ (o.bytes 8 h.nameId.toNat ++
        (o.bytes 8 h.checksum.toNat ++ rest))))) := by
    simp [bytes, lead, o]
  have hlead : lead.length = 8 := rfl
  have w0 : ByteOrder.window (h.bytes ++ rest).toByteArray 0 8 = lead :=
    ByteOrder.window_of_split _ [] lead _ (by rw [hsplit]; rfl) rfl hlead
  have w1 : ByteOrder.window (h.bytes ++ rest).toByteArray 8 4 = o.bytes 4 h.count :=
    ByteOrder.window_of_split _ lead _ _ (by rw [hsplit]; simp only [List.append_assoc]; rfl) hlead
      (ByteOrder.length_bytes _ _ _)
  have w2 : ByteOrder.window (h.bytes ++ rest).toByteArray 12 4 = o.bytes 4 h.storedLen :=
    ByteOrder.window_of_split _ (lead ++ o.bytes 4 h.count) _ _
      (by rw [hsplit]; simp only [List.append_assoc]; rfl) (by simp [hlead])
      (ByteOrder.length_bytes _ _ _)
  have w3 : ByteOrder.window (h.bytes ++ rest).toByteArray 16 4 = o.bytes 4 h.rawLen :=
    ByteOrder.window_of_split _ (lead ++ o.bytes 4 h.count ++ o.bytes 4 h.storedLen) _ _
      (by rw [hsplit]; simp only [List.append_assoc]; rfl) (by simp [hlead])
      (ByteOrder.length_bytes _ _ _)
  have w4 : ByteOrder.window (h.bytes ++ rest).toByteArray 20 8 = o.bytes 8 h.nameId.toNat :=
    ByteOrder.window_of_split _
      (lead ++ o.bytes 4 h.count ++ o.bytes 4 h.storedLen ++ o.bytes 4 h.rawLen) _ _
      (by rw [hsplit]; simp only [List.append_assoc]; rfl) (by simp [hlead])
      (ByteOrder.length_bytes _ _ _)
  have w5 : ByteOrder.window (h.bytes ++ rest).toByteArray 28 8 = o.bytes 8 h.checksum.toNat :=
    ByteOrder.window_of_split _
      (lead ++ o.bytes 4 h.count ++ o.bytes 4 h.storedLen ++ o.bytes 4 h.rawLen ++
        o.bytes 8 h.nameId.toNat) _ _
      (by rw [hsplit]; simp only [List.append_assoc]; rfl) (by simp [hlead])
      (ByteOrder.length_bytes _ _ _)
  have hsize : headerSize ≤ (h.bytes ++ rest).toByteArray.size := by
    simp [bytes, headerSize, snapshotMagic]
    omega
  rw [parse_of_lead _ h.flags h.encoding.code h.compression h.encoding hsize w0
    (IndexEncoding.ofCode?_code _)]
  have ho : (if h.flags &&& bigEndianFlag != 0 then ByteOrder.big else .little) = o := rfl
  simp only [ho, ByteOrder.read, w1, w2, w3, w4, w5, ByteOrder.value_bytes]
  have hc' : h.count % Nat.pow 256 4 = h.count := Nat.mod_eq_of_lt hc
  have hs' : h.storedLen % Nat.pow 256 4 = h.storedLen := Nat.mod_eq_of_lt hs
  have hr' : h.rawLen % Nat.pow 256 4 = h.rawLen := Nat.mod_eq_of_lt hr
  have hn : h.nameId.toNat % Nat.pow 256 8 = h.nameId.toNat := Nat.mod_eq_of_lt h.nameId.toNat_lt
  have hk : h.checksum.toNat % Nat.pow 256 8 = h.checksum.toNat :=
    Nat.mod_eq_of_lt h.checksum.toNat_lt
  rw [hc', hs', hr', hn, hk]
  simp

/-- The bytes of a parsed header are the 36 bytes it was parsed from. -/
theorem bytes_of_parse {d : ByteArray} {h : Header} (hp : parse d = .ok h) :
    h.bytes = d.data.toList.take headerSize := by
  have hr := readFrom_of_parse hp
  have htake : d.data.toList.take headerSize = ByteOrder.window d 0 36 := by
    rw [ByteOrder.window_eq_take_drop d 0 36 hr.size_le]
    simp [headerSize]
  -- both sides as the lead bytes and the five numbers, each number written back as read
  rw [htake, window_fields, window_lead, bytes, hr.count, hr.storedLen, hr.rawLen, hr.nameId,
    hr.checksum, ByteOrder.toNat_read_toUInt64, ByteOrder.toNat_read_toUInt64]
  simp only [ByteOrder.bytes_read, ← hr.magic, hr.version, hr.flags,
    IndexEncoding.code_of_ofCode? hr.encoding, hr.compression, List.append_assoc,
    List.cons_append, List.nil_append]

/-- Parsing and writing headers are inverse: a header whose three lengths fit 32 bits is read
back from its bytes followed by anything, and a header read from some bytes writes back the
first 36 of them. -/
theorem parse_bytes_roundTrip :
    (∀ (h : Header) (rest : List UInt8), h.count < UInt32.size → h.storedLen < UInt32.size →
      h.rawLen < UInt32.size → parse (h.bytes ++ rest).toByteArray = .ok h) ∧
    (∀ (d : ByteArray) (h : Header), parse d = .ok h →
      h.bytes = d.data.toList.take headerSize) :=
  ⟨fun h rest hc hs hr => parse_bytes_append h rest hc hs hr, fun _ _ hp => bytes_of_parse hp⟩

/-- A big-endian header of delta indices, followed by one more byte, is read back, and writes
back the bytes it was read from. -/
theorem parse_bytes_bigEndianDelta :
    let h : Header := ⟨3, .delta, 2, 5, 40, 72, 17, 99⟩
    let d := (h.bytes ++ [7]).toByteArray
    h.count < UInt32.size ∧ h.storedLen < UInt32.size ∧ h.rawLen < UInt32.size ∧ parse d = .ok h ∧
      h.bytes = d.data.toList.take headerSize :=
  have hc : (5 : Nat) < UInt32.size := by decide
  have hs : (40 : Nat) < UInt32.size := by decide
  have hr : (72 : Nat) < UInt32.size := by decide
  have hp := parse_bytes_roundTrip.1 ⟨3, .delta, 2, 5, 40, 72, 17, 99⟩ [7] hc hs hr
  ⟨hc, hs, hr, hp, parse_bytes_roundTrip.2 _ _ hp⟩

end Header

end Decimation
