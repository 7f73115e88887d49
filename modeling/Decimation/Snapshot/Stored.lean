import Decimation.Snapshot.Payload
import Decimation.Codec.Payload
import Decimation.Config.Error
import Decimation.Options
/-!
# Stored snapshots

A stored snapshot is a header followed by the payload, compressed as the header says. The
header records the payload's length before and after compression and the hashes of the name
and of the raw payload, so that reading can check each.

Writing takes options that set the byte order, the index encoding and the compression
(little-endian, delta and none by default); an option with an unknown code is refused before
the snapshot is validated.

Reading checks, in order: the header; that the rest is as long as the header says; that the
raw length can hold the number of points under the index encoding; that the compression is
known; that the payload restores to the raw length; the checksum; the payload; and that the
name matches its hash. Both take the compression and hash libraries as a parameter.
-/

namespace Decimation

/-- How a snapshot is written. -/
structure EncoderSettings where
  order : ByteOrder
  encoding : IndexEncoding
  compression : Compression

/-- Little-endian, delta-encoded rows, no compression. -/
def EncoderSettings.initial : EncoderSettings := ⟨.little, .delta, .none⟩

/-- A change to how a snapshot is written. -/
inductive EncoderOption where
  /-- write numbers in this byte order -/
  | order (o : ByteOrder)
  /-- encode rows with the encoding of this code -/
  | indexEncoding (code : UInt8)
  /-- compress with the kind of this code -/
  | compression (code : UInt8)

namespace EncoderOption

/-- The settings after the option, or why the option is refused. -/
def apply (o : EncoderOption) (s : EncoderSettings) : Except ConfigError EncoderSettings :=
  match o with
  | order b => .ok { s with order := b }
  | indexEncoding c =>
    match IndexEncoding.ofCode? c with
    | some e => .ok { s with encoding := e }
    | none => .error (.badIndexEncoding c)
  | compression c =>
    match Compression.ofCode? c with
    | some k => .ok { s with compression := k }
    | none => .error (.badCompression c)

end EncoderOption

/-- The options applied in order to the initial settings, skipping absent ones and stopping at
the first refused. -/
def EncoderSettings.build (opts : List (Option EncoderOption)) :
    Except ConfigError EncoderSettings :=
  applyOptions EncoderOption.apply opts EncoderSettings.initial

/-- Why a snapshot cannot be written. -/
inductive EncodeError where
  /-- an option is refused -/
  | option (e : ConfigError)
  /-- the snapshot is not valid -/
  | invalid (e : ValidationError)
  /-- the payload has more bytes than a header can count -/
  | tooLarge (size : Nat)

namespace EncodeError

/-- The message: a failure of a part keeps its own. -/
def message : EncodeError → String
  | option e => Failure.message e
  | invalid e => Failure.message e
  | tooLarge n => ErrorClass.preconditionViolation.tag s!"payload of {n} bytes is too large"

/-- The classes: those of the failing part. -/
def classes : EncodeError → List ErrorClass
  | option e => Failure.classes e
  | invalid e => Failure.classes e
  | tooLarge _ => ErrorClass.preconditionViolation.lineage

instance : Failure EncodeError where
  message := message
  classes := classes

end EncodeError

/-- Why bytes do not hold a stored snapshot. -/
inductive DecodeError where
  /-- the header is malformed -/
  | header (e : HeaderError)
  /-- the bytes after the header are not as many as the header says -/
  | storedSize (actual stated : Nat)
  /-- the raw length cannot hold the points -/
  | rawSizeOutside (raw lo hi count : Nat)
  /-- the payload cannot be restored -/
  | codec (e : CodecError)
  /-- the payload restores to another length than the header says -/
  | rawSize (actual stated : Nat)
  /-- the hash of the raw payload is not the one in the header -/
  | checksum (actual stated : UInt64)
  /-- the raw payload is malformed -/
  | payload (e : PayloadError)
  /-- the name's hash is not the one in the header -/
  | nameMismatch (name : ByteArray) (stated : UInt64)

/-- `0x` and sixteen hexadecimal digits. -/
def hex64 (x : UInt64) : String := "0x" ++ Text.hexPadded 16 x.toNat

namespace DecodeError

/-- The message of a failure. -/
def message : DecodeError → String
  | header e => Failure.message e
  | storedSize a s => ErrorClass.invalidSnapshot.tag s!"payload is {a} bytes, header says {s}"
  | rawSizeOutside r lo hi n =>
    ErrorClass.invalidSnapshot.tag s!"raw length {r} outside [{lo}, {hi}] for {n} points"
  | codec e => ErrorClass.invalidSnapshot.tag (Failure.message e)
  | rawSize a s => ErrorClass.invalidSnapshot.tag s!"raw payload is {a} bytes, header says {s}"
  | checksum a s => ErrorClass.checksumMismatch.tag ("got " ++ hex64 a ++ ", header says " ++ hex64 s)
  | payload e => Failure.message e
  | nameMismatch name id =>
    ErrorClass.invalidSnapshot.tag ("name " ++ Text.quoteBytes name.toList ++
      " does not match name ID " ++ hex64 id)

/-- The classes of a failure. -/
def classes : DecodeError → List ErrorClass
  | header e => Failure.classes e
  | checksum .. => ErrorClass.checksumMismatch.lineage
  | payload e => Failure.classes e
  | codec e => ErrorClass.invalidSnapshot.lineage ++ Failure.classes e
  | _ => ErrorClass.invalidSnapshot.lineage

instance : Failure DecodeError where
  message := message
  classes := classes

end DecodeError

/-- The least and the greatest raw length of a payload of `count` points: one byte of name
length and no name, up to ten bytes of it and the longest name; four bytes per raw row, one
to five per delta. -/
def rawLengthBounds (enc : IndexEncoding) (count : Nat) : Nat × Nat :=
  let (lo, hi) := match enc with
    | .raw => (4, 4)
    | .delta => (1, 5)
  (1 + count * (16 + lo), 10 + maxNameLength + count * (16 + hi))

namespace Snapshot

/-- The header and the stored bytes of a valid snapshot under the options. -/
def encode (lib : Libraries) (s : Snapshot) (opts : List (Option EncoderOption)) :
    Except EncodeError ByteArray := do
  let cfg ← (EncoderSettings.build opts).mapError .option
  s.validate.mapError .invalid
  let raw := s.payload cfg.order cfg.encoding
  if raw.size > 4294967295 then throw (.tooLarge raw.size)
  let stored := cfg.compression.compress lib raw
  let flags : UInt8 := (if cfg.order = .big then Header.bigEndianFlag else 0) |||
    (if s.boolY then Header.boolYFlag else 0)
  let h : Header := ⟨flags, cfg.encoding, cfg.compression.code, s.xs.size, stored.size,
    raw.size, lib.hash s.name, lib.hash raw⟩
  return ⟨(h.bytes ++ stored.toList).toArray⟩

/-- The header and the snapshot held by stored bytes; see the module header for the checks. -/
def decode (lib : Libraries) (data : ByteArray) : Except DecodeError (Header × Snapshot) := do
  let h ← (Header.parse data).mapError .header
  let body := data.extract headerSize data.size
  if body.size ≠ h.storedLen then throw (.storedSize body.size h.storedLen)
  let (lo, hi) := rawLengthBounds h.encoding h.count
  if h.rawLen < lo ∨ h.rawLen > hi then throw (.rawSizeOutside h.rawLen lo hi h.count)
  let k ← (compressionOfCode h.compression).mapError .codec
  let raw ← (k.restore lib body h.rawLen).mapError .codec
  if raw.size ≠ h.rawLen then throw (.rawSize raw.size h.rawLen)
  let sum := lib.hash raw
  if sum ≠ h.checksum then throw (.checksum sum h.checksum)
  let s ← (parsePayload raw h).mapError .payload
  if lib.hash s.name ≠ h.nameId then throw (.nameMismatch s.name h.nameId)
  return (h, s)

end Snapshot

end Decimation
