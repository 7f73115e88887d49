import Decimation.Proofs.Payload
import Decimation.Proofs.Except
import Decimation.Snapshot.Stored
/-!
# Stored snapshots read back

Decoding what encoding wrote gives back the snapshot, and the header reports the byte order,
index encoding and compression chosen, the number of points and the hash of the name, exactly
when the stored payload's length fits the 32 bits the header gives it
(`decode_encode_iff_storedLen_lt`). Encoding refuses a raw payload beyond 32 bits but writes the
stored length modulo `2^32`, so a compression that lengthens a payload near that bound yields
bytes whose header misstates the stored length, and decoding refuses them. The libraries are
a parameter; of them the round trip assumes only that the compression chosen restores what it
compresses (`Compression.Restores`), which holds of storing the payload as it is, under any
libraries (`Compression.restores_none`).

The proof goes through one statement per function: `Snapshot.encode_eq_ok_iff` says what
encoding writes, `Snapshot.decode_eq_ok_iff` lists the checks decoding passes, and the payload
itself is read back by `parsePayload_payload`. In between, the raw length of a valid snapshot
lies within the bounds decoding allows (`rawLengthBounds_payload`).
-/

namespace Decimation

open Codec

variable {lib : Libraries}

/-! ## Compression -/

/-- A compression kind restores every payload it compresses, given the payload's size. -/
def Compression.Restores (k : Compression) (lib : Libraries) : Prop :=
  ∀ b : ByteArray, k.restore lib (k.compress lib b) b.size = .ok b

theorem Compression.restores_none (lib : Libraries) : Compression.none.Restores lib := by
  intro b
  by_cases h : b.size = 0
  · have hb : b = ByteArray.empty := ByteArray.ext (Array.eq_empty_of_size_eq_zero h)
    subst hb
    rfl
  · simp [Compression.compress, Compression.restore, h]

theorem compressionOfCode_code (k : Compression) : compressionOfCode k.code = .ok k := by
  simp [compressionOfCode, Compression.ofCode?_code]

/-! ## Headers -/

/-- The flag byte of a byte order and a boolean flag reads back as both. -/
theorem Header.order_boolY_of_flags {h : Header} {o : ByteOrder} {b : Bool}
    (hf : h.flags = (if o = .big then Header.bigEndianFlag else 0) |||
      (if b then Header.boolYFlag else 0)) :
    h.order = o ∧ h.boolY = b := by
  cases o <;> cases b <;> simp [Header.order, Header.bigEndian, Header.boolY, hf] <;> decide

/-- A parsed header states a stored length below `2^32`: it is read from four bytes. -/
theorem Header.storedLen_lt_of_parse {d : ByteArray} {h : Header} (hp : Header.parse d = .ok h) :
    h.storedLen < UInt32.size := by
  rw [(Header.readFrom_of_parse hp).storedLen]
  exact ByteOrder.read_lt _ _ _ _

/-- The header encoding writes for a snapshot under settings. -/
def Snapshot.storedHeader (lib : Libraries) (s : Snapshot) (cfg : EncoderSettings) : Header :=
  let raw := s.payload cfg.order cfg.encoding
  ⟨(if cfg.order = .big then Header.bigEndianFlag else 0) ||| (if s.boolY then Header.boolYFlag else 0),
    cfg.encoding, cfg.compression.code, s.xs.size, (cfg.compression.compress lib raw).size,
    raw.size, lib.hash s.name, lib.hash raw⟩

/-! ## Encoding and decoding, one statement each -/

/-- Encoding succeeds exactly on a valid snapshot whose raw payload fits 32 bits, under options
that build, and writes the header followed by the compressed payload. -/
theorem Snapshot.encode_eq_ok_iff {s : Snapshot} {opts : List (Option EncoderOption)}
    {d : ByteArray} :
    s.encode lib opts = .ok d ↔ ∃ cfg, EncoderSettings.build opts = .ok cfg ∧
      s.validate = .ok () ∧ (s.payload cfg.order cfg.encoding).size ≤ 4294967295 ∧
      d = ((s.storedHeader lib cfg).bytes ++
        (cfg.compression.compress lib (s.payload cfg.order cfg.encoding)).toList).toByteArray := by
  simp only [Snapshot.encode, ↓ite_throw_bind, bind_eq_ok, mapError_eq_ok, ite_error_eq_ok,
    pure, Except.pure, Except.ok.injEq, not_lt, gt_iff_lt, mk_toArray]
  constructor
  · rintro ⟨cfg, hcfg, u, hv, hraw, rfl⟩
    exact ⟨cfg, hcfg, hv, hraw, rfl⟩
  · rintro ⟨cfg, hcfg, hv, hraw, rfl⟩
    exact ⟨cfg, hcfg, (), hv, hraw, rfl⟩

/-- Decoding succeeds exactly when every check it makes passes. -/
theorem Snapshot.decode_eq_ok_iff {d : ByteArray} {h : Header} {s : Snapshot} :
    Snapshot.decode lib d = .ok (h, s) ↔ Header.parse d = .ok h ∧
      (d.extract headerSize d.size).size = h.storedLen ∧
      (rawLengthBounds h.encoding h.count).1 ≤ h.rawLen ∧
      h.rawLen ≤ (rawLengthBounds h.encoding h.count).2 ∧
      ∃ k raw, compressionOfCode h.compression = .ok k ∧
        k.restore lib (d.extract headerSize d.size) h.rawLen = .ok raw ∧ raw.size = h.rawLen ∧
        lib.hash raw = h.checksum ∧ parsePayload raw h = .ok s ∧
        lib.hash s.name = h.nameId := by
  simp only [Snapshot.decode, ↓ite_throw_bind, bind_eq_ok, mapError_eq_ok, ite_error_eq_ok,
    pure, Except.pure, Except.ok.injEq, Prod.mk.injEq, ne_eq, not_not, not_or, not_lt,
    gt_iff_lt]
  constructor
  · rintro ⟨h', hp, hst, ⟨hlo, hhi⟩, k, hk, raw, hr, hrs, hsum, s', hpp, hn, rfl, rfl⟩
    exact ⟨hp, hst, hlo, hhi, k, raw, hk, hr, hrs, hsum, hpp, hn⟩
  · rintro ⟨hp, hst, hlo, hhi, k, raw, hk, hr, hrs, hsum, hpp, hn⟩
    exact ⟨h, hp, hst, ⟨hlo, hhi⟩, k, hk, raw, hr, hrs, hsum, s, hpp, hn, rfl, rfl⟩

/-! ## Raw lengths -/

theorem size_payload (s : Snapshot) (o : ByteOrder) (enc : IndexEncoding) :
    (s.payload o enc).size = (uvarintBytes s.name.size).length + s.name.size +
      8 * s.xs.size + 8 * s.ys.size + (rowBytes o enc s.rows.toList).length := by
  simp [Snapshot.payload, mk_toArray, ByteArray.toList_eq]
  omega

/-- Along rows that climb from `p`, each distance to the row before lies in `[0, maxRow]`. -/
theorem sub_mem_of_isChain {p : Int} {rows : List Int} (hchain : List.IsChain (· ≤ ·) (p :: rows))
    (hp : 0 ≤ p) (hb : ∀ r ∈ rows, r ≤ maxRow) :
    ∀ x ∈ rows.zip (p :: rows), 0 ≤ x.1 - x.2 ∧ x.1 - x.2 ≤ maxRow := by
  induction rows generalizing p with
  | nil => simp
  | cons r rs ih =>
    have hpr : p ≤ r := (List.isChain_cons_cons.mp hchain).1
    have hr := hb r (by simp)
    intro x hx
    rw [List.zip_cons_cons, List.mem_cons] at hx
    rcases hx with rfl | hx
    · dsimp only
      omega
    · exact ih (List.isChain_cons_cons.mp hchain).2 (by omega)
        (fun q hq => hb q (by simp [hq])) x hx

/-- A valid snapshot's delta-encoded rows take at most five bytes each: every distance is
below `2^32`. -/
theorem length_rowBytes_delta_le {rows : List Int} (h : firstBadRow rows none 0 = none)
    (o : ByteOrder) : (rowBytes o .delta rows).length ≤ 5 * rows.length := by
  have hzip : (rows.zip (0 :: rows)).length = rows.length := by simp
  rw [rowBytes, ← hzip]
  apply length_flatMap_le
  intro x hx
  have hx' := sub_mem_of_isChain (isChain_rows_of_firstBadRow h) (le_refl 0)
    (fun r hr => (firstBadRow_eq_none_bounds h r hr).2) x hx
  simp only [maxRow] at hx'
  apply length_uvarintBytes_le _ 5 (by decide)
  have h64 : (Nat.pow 2 64 : Int) = 18446744073709551616 := rfl
  rw [h64, Int.emod_eq_of_lt (by omega) (by omega)]
  simp only [Nat.pow_eq]
  omega

theorem le_length_rowBytes_delta (o : ByteOrder) (rows : List Int) :
    rows.length ≤ (rowBytes o .delta rows).length := by
  have hzip : (rows.zip (0 :: rows)).length = rows.length := by simp
  have := le_length_flatMap (fun x : Int × Int =>
    uvarintBytes ((x.1 - x.2) % (Nat.pow 2 64 : Int)).toNat) 1 (rows.zip (0 :: rows))
    (fun x _ => length_uvarintBytes_pos _)
  rw [hzip, Nat.one_mul] at this
  exact this

/-- The raw payload of a valid snapshot lies within the bounds decoding allows for its number of
points. -/
theorem rawLengthBounds_payload {s : Snapshot} (hv : s.validate = .ok ()) (o : ByteOrder)
    (enc : IndexEncoding) :
    (rawLengthBounds enc s.xs.size).1 ≤ (s.payload o enc).size ∧
      (s.payload o enc).size ≤ (rawLengthBounds enc s.xs.size).2 := by
  obtain ⟨hname, hys, hrows, -, hbad⟩ := Snapshot.validate_eq_ok.mp hv
  have hu1 := length_uvarintBytes_pos s.name.size
  have hu10 := length_uvarintBytes_le s.name.size 10 (by decide)
    (by simp only [maxNameLength] at hname; simp only [Nat.pow_eq]; omega)
  rw [size_payload]
  have hlen : s.rows.toList.length = s.xs.size := by simp [hrows]
  cases enc with
  | raw =>
    have := length_rowBytes_raw o s.rows.toList
    simp only [rawLengthBounds]
    omega
  | delta =>
    have hle := length_rowBytes_delta_le hbad o
    have hge := le_length_rowBytes_delta o s.rows.toList
    simp only [rawLengthBounds]
    omega

/-! ## The round trip -/

/-- Decoding the bytes encoding wrote gives back the snapshot, with a header that reports the
settings chosen, the number of points and the hash of the name, exactly when the stored payload
is shorter than `2^32` bytes. -/
theorem decode_encode_iff_storedLen_lt {s : Snapshot} {opts : List (Option EncoderOption)}
    {cfg : EncoderSettings} {d : ByteArray} (hcfg : EncoderSettings.build opts = .ok cfg)
    (hcodec : cfg.compression.Restores lib) (hd : s.encode lib opts = .ok d) :
    (∃ h, Snapshot.decode lib d = .ok (h, s) ∧ Header.parse d = .ok h ∧ h.order = cfg.order ∧
        h.encoding = cfg.encoding ∧ h.compression = cfg.compression.code ∧
        h.count = s.xs.size ∧ h.nameId = lib.hash s.name) ↔
      (cfg.compression.compress lib (s.payload cfg.order cfg.encoding)).size < UInt32.size := by
  obtain ⟨cfg', hcfg', hv, hraw, rfl⟩ := Snapshot.encode_eq_ok_iff.mp hd
  obtain rfl : cfg = cfg' := Except.ok.inj (hcfg.symm.trans hcfg')
  have hbody : ((s.storedHeader lib cfg).bytes ++
      (cfg.compression.compress lib (s.payload cfg.order cfg.encoding)).toList).toByteArray.extract
        headerSize (((s.storedHeader lib cfg).bytes ++
          (cfg.compression.compress lib (s.payload cfg.order cfg.encoding)).toList
            ).toByteArray.size) =
      cfg.compression.compress lib (s.payload cfg.order cfg.encoding) := by
    have hlen : (s.storedHeader lib cfg).bytes.length = headerSize := by
      simp [Header.bytes, headerSize, snapshotMagic]
    have := extract_toByteArray_mid (s.storedHeader lib cfg).bytes
      (cfg.compression.compress lib (s.payload cfg.order cfg.encoding)).toList []
    simp only [List.append_nil, ByteArray.toList_toByteArray, hlen] at this
    rwa [List.size_toByteArray, List.length_append, hlen]
  constructor
  · -- a parsed header states a stored length below `2^32`, and decoding checks it
    rintro ⟨h, hdec, hp, -⟩
    have hst := (Snapshot.decode_eq_ok_iff.mp hdec).2.1
    have hlt := Header.storedLen_lt_of_parse hp
    rw [hbody] at hst
    omega
  · intro hst
    have hfl := Header.order_boolY_of_flags (h := s.storedHeader lib cfg) rfl
    have hp : Header.parse ((s.storedHeader lib cfg).bytes ++
        (cfg.compression.compress lib (s.payload cfg.order cfg.encoding)).toList).toByteArray =
        .ok (s.storedHeader lib cfg) := by
      obtain ⟨-, -, -, hn, -⟩ := Snapshot.validate_eq_ok.mp hv
      apply Header.parse_bytes_append
      · show s.xs.size < 4294967296
        omega
      · exact hst
      · show (s.payload cfg.order cfg.encoding).size < 4294967296
        omega
    have hbounds := rawLengthBounds_payload hv cfg.order cfg.encoding
    refine ⟨s.storedHeader lib cfg, Snapshot.decode_eq_ok_iff.mpr ⟨hp, by rw [hbody]; rfl,
      hbounds.1, hbounds.2, cfg.compression, s.payload cfg.order cfg.encoding,
      compressionOfCode_code _, by rw [hbody]; exact hcodec _, rfl, rfl,
      parsePayload_payload s _ _ _ hv hfl.1 rfl rfl hfl.2, rfl⟩, hp, hfl.1, rfl, rfl, rfl, rfl⟩

/-- A big-endian snapshot of raw rows, boolean y values, a negative zero, a NaN and an infinity,
stored uncompressed, is read back. -/
theorem decode_encode_bigEndianRaw :
    let s : Snapshot := ⟨⟨#[121]⟩, #[-0.0, 0 / 0], #[1 / 0, 2.5], true, #[4, 9]⟩
    let opts : List (Option EncoderOption) := [some (.order .big), some (.indexEncoding 1)]
    let cfg : EncoderSettings := ⟨.big, .raw, .none⟩
    let lib := Libraries.standard
    let d := ((s.storedHeader lib cfg).bytes ++
      (cfg.compression.compress lib (s.payload cfg.order cfg.encoding)).toList).toByteArray
    EncoderSettings.build opts = .ok cfg ∧ cfg.compression.Restores lib ∧
      s.encode lib opts = .ok d ∧
      ∃ h, Snapshot.decode lib d = .ok (h, s) ∧ Header.parse d = .ok h ∧ h.order = cfg.order ∧
        h.encoding = cfg.encoding ∧ h.compression = cfg.compression.code ∧
        h.count = s.xs.size ∧ h.nameId = lib.hash s.name := by
  intro s opts cfg lib d
  have hcfg : EncoderSettings.build opts = .ok cfg := rfl
  have hv : s.validate = .ok () := rfl
  have hd : s.encode lib opts = .ok d :=
    Snapshot.encode_eq_ok_iff.mpr ⟨cfg, hcfg, hv, by decide +kernel, rfl⟩
  exact ⟨hcfg, Compression.restores_none lib, hd,
    (decode_encode_iff_storedLen_lt hcfg (Compression.restores_none lib) hd).mpr
      (by decide +kernel)⟩

end Decimation
