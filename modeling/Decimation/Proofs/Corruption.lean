import Decimation.Proofs.Canonical
/-!
# Stored snapshots with one byte changed

The checksum in a header covers the raw payload and nothing else; the name's hash covers the
name. A change to one byte of stored bytes is therefore caught by the check that reads that byte,
or by the checksum once the payload is restored, or it is not caught at all. `decode_set!_eq_or`
sorts the bytes accordingly: with one byte changed, bytes that decode to `s` decode to `s`
again or fail, except

* at the flag byte, whose byte-order and boolean-flag bits no check reads: a flipped boolean
  flag decodes to `s` with its flag negated (`decode_flipBoolY`);
* at the index-encoding byte, where the rows are read again under the other encoding;
* at the number of points under delta rows, whose variable-length distances can end the payload
  for another number too;
* at the compression byte or in the stored payload, when the payload they restore to has the
  checksum of the old one (`Collides`), which a hash can only make rare.

Every other byte, the magic, the version, the stored and raw lengths and both hashes, is guarded
outright. `decode_byteChange_eq_or` states this of the bytes encoding writes.

The proof compares the two decodings field by field: a field whose bytes the change misses is
read as before (`Header.parse_set!`), what a payload restores to does not depend on the size it
is expected to have (`Compression.restore_eq_of_ok`), and parsing reads four fields of the header
(`parsePayload_congr`). Of the libraries, the statement assumes that the compression chosen
restores what it compresses and that an LZ4 block decodes to the same bytes within any capacity
that holds them (`Libraries.Lz4IgnoresCapacity`), which the LZ4 decoder here does.
-/
namespace Decimation

open Codec

variable {lib : Libraries}

/-! ## One changed byte -/

theorem byteAt_set!_ne (d : ByteArray) {i j : Nat} (b : UInt8) (hij : i ≠ j) :
    byteAt (d.set! i b) j = byteAt d j := by
  by_cases hj : j < d.size
  · simp [byteAt, hj, ByteArray.getElem_set!_ne _ _ _ _ hij]
  · simp [byteAt, hj]

/-- A window that does not reach the changed byte reads as before. -/
theorem ByteOrder.read_set!_of_disjoint (o : ByteOrder) (d : ByteArray) {i : Nat} (b : UInt8)
    {pos w : Nat} (hi : i < pos ∨ pos + w ≤ i) : o.read (d.set! i b) pos w = o.read d pos w := by
  have hwin : ByteOrder.window (d.set! i b) pos w = ByteOrder.window d pos w := by
    simp only [ByteOrder.window]
    apply List.map_congr_left
    intro k hk
    rw [List.mem_range] at hk
    exact byteAt_set!_ne d b (by omega)
  rw [ByteOrder.read, hwin, ByteOrder.read]

/-- The bytes from `start` on do not see a change before `start`. -/
theorem extract_set!_of_lt (d : ByteArray) {i : Nat} (b : UInt8) {start stop : Nat}
    (hi : i < start) : (d.set! i b).extract start stop = d.extract start stop := by
  apply ByteArray.ext
  simp only [ByteArray.data_extract]
  apply Array.ext
  · simp
  · intro k hk₁ hk₂
    have hk : start + k < d.size := by simp at hk₂; omega
    have hk' : start + k < (d.set! i b).size := by simpa using hk
    simp only [Array.getElem_extract]
    change (d.set! i b)[start + k] = d[start + k]
    exact ByteArray.getElem_set!_ne _ _ _ _ (by omega) hk

/-! ## Headers -/

/-- Headers with one flag byte have one byte order and one boolean flag. -/
theorem Header.order_boolY_eq {h h' : Header} (hf : h'.flags = h.flags) :
    h'.order = h.order ∧ h'.boolY = h.boolY := by
  simp [Header.order, Header.bigEndian, Header.boolY, hf]

/-- The header of bytes with one byte changed agrees with the header before on every field
whose bytes the change misses; the numbers need the byte order unchanged, which the flag byte
gives. -/
theorem Header.parse_set! {d : ByteArray} {i : Nat} {b : UInt8} {h h' : Header}
    (hp : Header.parse d = .ok h) (hp' : Header.parse (d.set! i b) = .ok h') :
    (i ≠ 5 → h'.flags = h.flags) ∧ (i ≠ 6 → h'.encoding = h.encoding) ∧
      (i ≠ 7 → h'.compression = h.compression) ∧
      (h'.order = h.order → (i < 8 ∨ 12 ≤ i) → h'.count = h.count) ∧
      (h'.order = h.order → (i < 28 ∨ 36 ≤ i) → h'.checksum = h.checksum) := by
  have hr := Header.readFrom_of_parse hp
  have hr' := Header.readFrom_of_parse hp'
  have hflags : i ≠ 5 → h'.flags = h.flags := fun h5 => by
    rw [hr.flags, hr'.flags, byteAt_set!_ne d b h5]
  refine ⟨hflags, fun h6 => ?_, fun h7 => ?_, fun ho hi => ?_, fun ho hi => ?_⟩
  · have he' := hr'.encoding
    rw [byteAt_set!_ne d b h6, hr.encoding] at he'
    exact (Option.some.inj he').symm
  · rw [hr.compression, hr'.compression, byteAt_set!_ne d b h7]
  · rw [hr.count, hr'.count, ho, ByteOrder.read_set!_of_disjoint _ _ _ (by omega)]
  · rw [hr.checksum, hr'.checksum, ho, ByteOrder.read_set!_of_disjoint _ _ _ (by omega)]

end Decimation

namespace Decimation.Codec.Lz4

/-- A block that decodes within two capacities decodes to the same bytes: the capacity only
ever refuses. -/
theorem decodeFrom_eq_of_some {src : ByteArray} {c₁ c₂ : Nat} :
    ∀ {pos : Nat} {out r₁ r₂ : ByteArray}, decodeFrom src c₁ pos out = some r₁ →
      decodeFrom src c₂ pos out = some r₂ → r₁ = r₂ := by
  intro pos out r₁ r₂ h₁ h₂
  -- the second run takes the branches of the first, except that its capacity may refuse
  fun_induction decodeFrom src c₁ pos out generalizing r₂ with
  | case3 pos out hp token p1 lit hl hfit out' p2 =>
    rename_i hend
    rw [decodeFrom] at h₂
    simp only [hp, ↓reduceDIte] at h₂
    split at h₂
    · rename_i hnone
      rw [show readCount src (pos + 1) (src[pos].toNat / 16) = _ from hl] at hnone
      cases hnone
    · rename_i q1 q2 hsome
      rw [show readCount src (pos + 1) (src[pos].toNat / 16) = _ from hl] at hsome
      obtain ⟨rfl, rfl⟩ := Prod.mk.inj (Option.some.inj hsome)
      split at h₂
      · cases h₂
      · exact (Option.some.inj h₁).symm.trans (Option.some.inj h₂)
  | case8 pos out hp token p1 lit hl hfit out' p2 hend hroom off hoff p3 m hm len hmatch =>
    rename_i ih
    rw [decodeFrom] at h₂
    simp only [hp, ↓reduceDIte] at h₂
    split at h₂
    · rename_i hnone
      rw [show readCount src (pos + 1) (src[pos].toNat / 16) = _ from hl] at hnone
      cases hnone
    · rename_i q1 q2 hsome
      rw [show readCount src (pos + 1) (src[pos].toNat / 16) = _ from hl] at hsome
      obtain ⟨rfl, rfl⟩ := Prod.mk.inj (Option.some.inj hsome)
      split at h₂
      · cases h₂
      · split at h₂
        · rename_i hnone
          rw [show readCount src (p1 + lit + 2) (src[pos].toNat % 16) = _ from hm] at hnone
          cases hnone
        · rename_i q3 q4 hsome'
          rw [show readCount src (p1 + lit + 2) (src[pos].toNat % 16) = _ from hm] at hsome'
          obtain ⟨rfl, rfl⟩ := Prod.mk.inj (Option.some.inj hsome')
          split at h₂
          · cases h₂
          · exact ih h₁ h₂
  | case9 pos out hp =>
    rw [decodeFrom] at h₂
    simp only [hp, ↓reduceDIte] at h₂
    exact (Option.some.inj h₁).symm.trans (Option.some.inj h₂)
  | _ => cases h₁

end Decimation.Codec.Lz4

namespace Decimation

variable {lib : Libraries}

/-- The bytes an LZ4 block decodes to do not depend on the capacity it is given: a capacity only
ever refuses. -/
def Libraries.Lz4IgnoresCapacity (lib : Libraries) : Prop :=
  ∀ {src : ByteArray} {c₁ c₂ : Nat} {r₁ r₂ : ByteArray},
    lib.lz4Decode src c₁ = some r₁ → lib.lz4Decode src c₂ = some r₂ → r₁ = r₂

theorem Libraries.standard_lz4IgnoresCapacity : Libraries.standard.Lz4IgnoresCapacity :=
  fun h₁ h₂ => Codec.Lz4.decodeFrom_eq_of_some h₁ h₂

/-- What a payload restores to does not depend on the size it is expected to have: the size is
only ever checked. -/
theorem Compression.restore_eq_of_ok (hlz4 : lib.Lz4IgnoresCapacity) {k : Compression}
    {data : ByteArray} {r₁ r₂ : Int} {o₁ o₂ : ByteArray} (h₁ : k.restore lib data r₁ = .ok o₁)
    (h₂ : k.restore lib data r₂ = .ok o₂) (hr₁ : 0 < r₁) (hr₂ : 0 < r₂) : o₁ = o₂ := by
  cases k with
  | none =>
    simp only [Compression.restore] at h₁ h₂
    split at h₁
    · cases h₁
    split at h₂
    · cases h₂
    exact (Except.ok.inj h₁).symm.trans (Except.ok.inj h₂)
  | lz4 =>
    simp only [Compression.restore, hr₁, hr₂, ↓reduceIte] at h₁ h₂
    by_cases hz : data.size = 0
    · simp only [hz, ↓reduceIte] at h₁ h₂
      exact (Except.ok.inj h₁).symm.trans (Except.ok.inj h₂)
    simp only [hz, ↓reduceIte] at h₁ h₂
    split at h₁
    · cases h₁
    split at h₂
    · cases h₂
    cases hb₁ : lib.lz4Decode data r₁.toNat with
    | none => simp only [hb₁] at h₁; cases h₁
    | some out₁ =>
      cases hb₂ : lib.lz4Decode data r₂.toNat with
      | none => simp only [hb₂] at h₂; cases h₂
      | some out₂ =>
        simp only [hb₁] at h₁
        simp only [hb₂] at h₂
        rw [← Except.ok.inj h₁, ← Except.ok.inj h₂]
        exact hlz4 hb₁ hb₂
  | s2 =>
    simp only [Compression.restore] at h₁ h₂
    by_cases hz : data.size = 0
    · simp only [hz, ↓reduceIte] at h₁ h₂
      exact (Except.ok.inj h₁).symm.trans (Except.ok.inj h₂)
    simp only [hz, ↓reduceIte] at h₁ h₂
    -- the stated length is read from the block; the expected size is only compared with it
    cases hl : lib.s2DecodedLength data with
    | none => simp only [hl] at h₁; cases h₁
    | some n =>
      simp only [hl] at h₁ h₂
      split at h₁
      · cases h₁
      split at h₂
      · cases h₂
      cases hd : lib.s2Decode data with
      | none => simp only [hd] at h₁; cases h₁
      | some out =>
        simp only [hd] at h₁ h₂
        exact (Except.ok.inj h₁).symm.trans (Except.ok.inj h₂)
  | zstd =>
    simp only [Compression.restore] at h₁ h₂
    by_cases hz : data.size = 0
    · simp only [hz, ↓reduceIte] at h₁ h₂
      exact (Except.ok.inj h₁).symm.trans (Except.ok.inj h₂)
    simp only [hz, ↓reduceIte] at h₁ h₂
    cases hd : lib.zstdDecompress data with
    | error e => simp only [hd] at h₁; cases h₁
    | ok out =>
      simp only [hd] at h₁ h₂
      exact (Except.ok.inj h₁).symm.trans (Except.ok.inj h₂)

/-! ## Payloads read under two headers -/

/-- Parsing reads four things of the header: the byte order, the index encoding, the number of
points and the boolean flag, which the snapshot only carries. -/
theorem parsePayload_congr {raw : ByteArray} {h h' : Header} {s : Snapshot}
    (hs : parsePayload raw h = .ok s) (ho : h'.order = h.order) (he : h'.encoding = h.encoding)
    (hc : h'.count = h.count) : parsePayload raw h' = .ok { s with boolY := h'.boolY } := by
  obtain ⟨n, p, rows, hn, hfit, hrows, rfl, hv⟩ := parsePayload_eq_ok_iff.mp hs
  have hrows' : RowsAt raw h' (p + n + h'.count * 8 + h'.count * 8) rows := by
    unfold RowsAt at hrows ⊢
    rw [he, hc, ho]
    exact hrows
  exact parsePayload_eq_ok_iff.mpr ⟨n, p, rows, hn, by rwa [hc], hrows', by rw [ho, hc], hv⟩

/-- Under raw rows a payload's length fixes the number of points: each takes twenty bytes. -/
theorem count_eq_of_parsePayload_raw {raw : ByteArray} {h h' : Header} {s s' : Snapshot}
    (hs : parsePayload raw h = .ok s) (hs' : parsePayload raw h' = .ok s')
    (he : h.encoding = .raw) (he' : h'.encoding = .raw) : h'.count = h.count := by
  obtain ⟨n, p, rows, hn, -, hrows, -⟩ := parsePayload_eq_ok_iff.mp hs
  obtain ⟨n', p', rows', hn', -, hrows', -⟩ := parsePayload_eq_ok_iff.mp hs'
  rw [hn] at hn'
  obtain ⟨rfl, rfl⟩ := Prod.mk.inj (Option.some.inj hn')
  unfold RowsAt at hrows hrows'
  rw [he] at hrows
  rw [he'] at hrows'
  omega

theorem boolY_of_parsePayload {raw : ByteArray} {h : Header} {s : Snapshot}
    (hs : parsePayload raw h = .ok s) : s.boolY = h.boolY := by
  obtain ⟨n, p, rows, -, -, -, rfl, -⟩ := parsePayload_eq_ok_iff.mp hs
  rfl

theorem one_le_rawLengthBounds (enc : IndexEncoding) (count : Nat) :
    1 ≤ (rawLengthBounds enc count).1 := by
  cases enc <;> simp [rawLengthBounds]

/-! ## One changed byte, decoded -/

/-- Two different raw payloads with one checksum. -/
def Collides (lib : Libraries) (a b : ByteArray) : Prop := a ≠ b ∧ lib.hash a = lib.hash b

/-- Bytes that decode to `s`, with one byte changed, decode to `s` again or fail, unless the
change is one the checksum cannot see: the flag byte (a changed byte order, or the boolean flag
alone, which gives `s` with its flag negated), the index-encoding byte, the number of points
under delta rows, or a change of the compression byte or the stored payload that restores to
another raw payload with the same checksum. -/
theorem decode_set!_eq_or (hlz4 : lib.Lz4IgnoresCapacity) {d : ByteArray} {h h' : Header}
    {s s' : Snapshot} {k : Compression} {raw : ByteArray} {i : Nat} {b : UInt8}
    (hp : Header.parse d = .ok h)
    (hk : compressionOfCode h.compression = .ok k)
    (hraw : k.restore lib (d.extract headerSize d.size) h.rawLen = .ok raw) (hpos : 0 < h.rawLen)
    (hsum : lib.hash raw = h.checksum) (hs : parsePayload raw h = .ok s)
    (hd' : Snapshot.decode lib (d.set! i b) = .ok (h', s')) :
    s' = s ∨ (i = 5 ∧ (h'.order ≠ h.order ∨ s' = { s with boolY := !s.boolY })) ∨
      (i = 6 ∧ h'.encoding ≠ h.encoding) ∨
      (8 ≤ i ∧ i < 12 ∧ h.encoding = .delta ∧ h'.count ≠ h.count) ∨
      ((i = 7 ∨ headerSize ≤ i) ∧
        ∃ raw', Collides lib raw' raw ∧ parsePayload raw' h' = .ok s') := by
  obtain ⟨hp', -, hlo', -, k', raw', hk', hraw', -, hsum', hs', -⟩ :=
    Snapshot.decode_eq_ok_iff.mp hd'
  obtain ⟨hF, hE, hC, hN, hS⟩ := Header.parse_set! hp hp'
  -- the raw payload is the same when the stored one and its compression are
  have hsameRaw : i < headerSize → h'.compression = h.compression → raw' = raw := by
    intro hi hc
    rw [hc, hk] at hk'
    cases hk'
    rw [ByteArray.size_set!, extract_set!_of_lt d b hi] at hraw'
    have hpos' : 0 < h'.rawLen := Nat.lt_of_lt_of_le Nat.one_pos
      ((one_le_rawLengthBounds _ _).trans hlo')
    exact Compression.restore_eq_of_ok hlz4 hraw' hraw (by omega) (by omega)
  -- and the snapshot is the same when, besides, the four fields parsing reads are
  have hsame : h'.order = h.order → h'.encoding = h.encoding → h'.count = h.count →
      h'.boolY = h.boolY → raw' = raw → s' = s := by
    intro ho he hc hb hr
    subst hr
    rw [parsePayload_congr hs ho he hc, hb, ← boolY_of_parsePayload hs] at hs'
    exact (Except.ok.inj hs').symm
  by_cases h5 : i = 5
  · -- the flag byte: only a change of byte order or of the boolean flag can show
    subst h5
    by_cases ho : h'.order = h.order
    · have hr := hsameRaw (by decide) (hC (by decide))
      have hc := hN ho (by decide)
      by_cases hb : h'.boolY = h.boolY
      · exact .inl (hsame ho (hE (by decide)) hc hb hr)
      · subst hr
        rw [parsePayload_congr hs ho (hE (by decide)) hc] at hs'
        have hb' : h'.boolY = !s.boolY := by
          rw [boolY_of_parsePayload hs]
          revert hb
          cases h'.boolY <;> cases h.boolY <;> decide
        exact .inr (.inl ⟨rfl, .inr (by rw [← Except.ok.inj hs', hb'])⟩)
    · exact .inr (.inl ⟨rfl, .inl ho⟩)
  obtain ⟨ho, hb⟩ := Header.order_boolY_eq (hF h5)
  by_cases h6 : i = 6
  · subst h6
    by_cases he : h'.encoding = h.encoding
    · exact .inl (hsame ho he (hN ho (by decide)) hb (hsameRaw (by decide) (hC (by decide))))
    · exact .inr (.inr (.inl ⟨rfl, he⟩))
  have he := hE h6
  by_cases hcount : 8 ≤ i ∧ i < 12
  · -- the number of points: raw rows fix it by the payload's length
    have hr := hsameRaw (by unfold headerSize; omega) (hC (by omega))
    by_cases hc : h'.count = h.count
    · exact .inl (hsame ho he hc hb hr)
    · cases henc : h.encoding with
      | raw =>
        subst hr
        exact absurd (count_eq_of_parsePayload_raw hs hs' henc (he.trans henc)) hc
      | delta => exact .inr (.inr (.inr (.inl ⟨hcount.1, hcount.2, rfl, hc⟩)))
  have hc := hN ho (by omega)
  by_cases hcol : i = 7 ∨ headerSize ≤ i
  · -- the compression byte or the stored payload: only the checksum guards them
    by_cases hr : raw' = raw
    · exact .inl (hsame ho he hc hb hr)
    · have hck := hS ho (by unfold headerSize at hcol; omega)
      refine .inr (.inr (.inr (.inr ⟨hcol, raw', ⟨hr, ?_⟩, hs'⟩)))
      rw [hsum', hsum, hck]
  · -- the magic, the version and the lengths and hashes: the raw payload is read as before
    have hr := hsameRaw (by omega) (hC (by omega))
    exact .inl (hsame ho he hc hb hr)

/-! ## The boolean flag -/

/-- Flipping the boolean flag bit of a flag byte written from a byte order and a flag writes
the negated flag. -/
theorem Header.flags_xor_boolYFlag (o : ByteOrder) (c : Bool) :
    ((if o = .big then Header.bigEndianFlag else 0) ||| (if c then Header.boolYFlag else 0)) ^^^
        Header.boolYFlag =
      (if o = .big then Header.bigEndianFlag else 0) ||| (if !c then Header.boolYFlag else 0) := by
  cases o <;> cases c <;> decide

theorem ByteArray.set!_toByteArray (l : List UInt8) (i : Nat) (x : UInt8) :
    l.toByteArray.set! i x = (l.set i x).toByteArray := by
  rw [← mk_toArray, ← mk_toArray]
  simp [ByteArray.set!]

/-- Flipping the boolean flag in the bytes encoding writes gives the bytes it writes for the
snapshot with its flag negated: the payload does not hold the flag, so no hash covers it. -/
theorem storedBytes_flipBoolY (s : Snapshot) (cfg : EncoderSettings) :
    ((s.storedHeader lib cfg).bytes ++
        (cfg.compression.compress lib (s.payload cfg.order cfg.encoding)).toList).toByteArray.set! 5
        ((s.storedHeader lib cfg).flags ^^^ Header.boolYFlag) =
      (({ s with boolY := !s.boolY }.storedHeader lib cfg).bytes ++
        (cfg.compression.compress lib (s.payload cfg.order cfg.encoding)).toList).toByteArray := by
  have hflags : (s.storedHeader lib cfg).flags ^^^ Header.boolYFlag =
      ({ s with boolY := !s.boolY }.storedHeader lib cfg).flags :=
    Header.flags_xor_boolYFlag cfg.order s.boolY
  have horder : ({ s with boolY := !s.boolY }.storedHeader lib cfg).order =
      (s.storedHeader lib cfg).order :=
    (Header.order_boolY_of_flags rfl).1.trans (Header.order_boolY_of_flags rfl).1.symm
  rw [ByteArray.set!_toByteArray, List.set_append_left _ _ (by simp [Header.bytes, snapshotMagic]),
    hflags]
  simp only [Header.bytes, horder, snapshotMagic, List.cons_append, List.set_cons_succ]
  rfl

/-- Bytes encoding writes for a valid snapshot, with the boolean flag flipped, decode to the
snapshot with its flag negated, when the compression restores what it compresses and the stored
payload fits its 32 bits. -/
theorem decode_flipBoolY {s : Snapshot} {cfg : EncoderSettings} (hv : s.validate = .ok ())
    (hcodec : cfg.compression.Restores lib)
    (hraw : (s.payload cfg.order cfg.encoding).size ≤ 4294967295)
    (hst : (cfg.compression.compress lib (s.payload cfg.order cfg.encoding)).size < UInt32.size) :
    Snapshot.decode lib (((s.storedHeader lib cfg).bytes ++
        (cfg.compression.compress lib (s.payload cfg.order cfg.encoding)).toList).toByteArray.set! 5
        ((s.storedHeader lib cfg).flags ^^^ Header.boolYFlag)) =
      .ok ({ s with boolY := !s.boolY }.storedHeader lib cfg, { s with boolY := !s.boolY }) := by
  rw [storedBytes_flipBoolY]
  exact decode_storedBytes hv hcodec hraw hst

/-- A one-point snapshot of float y values, stored little-endian with raw rows and no
compression: with bit 1 of its flag byte set, it decodes to the snapshot of boolean y values. -/
theorem decode_boolYFlag_set :
    let s : Snapshot := ⟨"v".toUTF8, #[⟨0x3FF0000000000000⟩], #[⟨0⟩], false, #[0]⟩
    let cfg : EncoderSettings := ⟨.little, .raw, .none⟩
    let lib := Libraries.standard
    let d := ((s.storedHeader lib cfg).bytes ++
      (cfg.compression.compress lib (s.payload cfg.order cfg.encoding)).toList).toByteArray
    s.encode lib [some (.compression 1), some (.indexEncoding 1)] = .ok d ∧
      Snapshot.decode lib (d.set! 5 2) =
        .ok ({ s with boolY := true }.storedHeader lib cfg, { s with boolY := true }) ∧
      { s with boolY := true } ≠ s := by
  intro s cfg lib d
  have hv : s.validate = .ok () := by decide
  have hraw : (s.payload cfg.order cfg.encoding).size ≤ 4294967295 := by decide +kernel
  have hflag : (2 : UInt8) = (s.storedHeader lib cfg).flags ^^^ Header.boolYFlag := by decide
  refine ⟨Snapshot.encode_eq_ok_iff.mpr ⟨cfg, rfl, hv, hraw, rfl⟩, ?_, fun h => ?_⟩
  · rw [hflag]
    exact decode_flipBoolY hv (Compression.restores_none lib) hraw (by decide +kernel)
  · exact Bool.noConfusion (congrArg Snapshot.boolY h)

/-- Decoding the bytes encoding wrote for a valid snapshot, with one byte changed, gives the
snapshot back or fails, unless the byte is the flag byte (with the byte order changed, or the
boolean flag alone, which negates the snapshot's flag), the index-encoding byte, one of the
number of points under delta rows, or the compression byte or a byte of the stored payload with
the raw payload restored colliding with the one written. Compression kinds are assumed to
restore what they compress, and LZ4 blocks to decode alike within any capacity. -/
theorem decode_byteChange_eq_or {s : Snapshot} {opts : List (Option EncoderOption)}
    {cfg : EncoderSettings} {d : ByteArray} {i : Nat} {b : UInt8} {h' : Header} {s' : Snapshot}
    (hcfg : EncoderSettings.build opts = .ok cfg) (hcodec : cfg.compression.Restores lib)
    (hlz4 : lib.Lz4IgnoresCapacity) (hd : s.encode lib opts = .ok d)
    (hdec : Snapshot.decode lib (d.set! i b) = .ok (h', s')) :
    s' = s ∨ (i = 5 ∧ (h'.order ≠ cfg.order ∨ s' = { s with boolY := !s.boolY })) ∨
      (i = 6 ∧ h'.encoding ≠ cfg.encoding) ∨
      (8 ≤ i ∧ i < 12 ∧ cfg.encoding = .delta ∧ h'.count ≠ s.xs.size) ∨
      ((i = 7 ∨ headerSize ≤ i) ∧
        ∃ raw, Collides lib raw (s.payload cfg.order cfg.encoding) ∧
          parsePayload raw h' = .ok s') := by
  obtain ⟨cfg', hcfg', hv, hraw, rfl⟩ := Snapshot.encode_eq_ok_iff.mp hd
  obtain rfl : cfg = cfg' := Except.ok.inj (hcfg.symm.trans hcfg')
  have hbody := Header.extract_bytes_append (s.storedHeader lib cfg)
    (cfg.compression.compress lib (s.payload cfg.order cfg.encoding))
  -- the changed bytes decode, so the stored length they state, below `2^32`, is the stored one
  have hst :
      (cfg.compression.compress lib (s.payload cfg.order cfg.encoding)).size < UInt32.size := by
    obtain ⟨hp', hst', -⟩ := Snapshot.decode_eq_ok_iff.mp hdec
    have hlt := Header.storedLen_lt_of_parse hp'
    rw [ByteArray.size_extract, ByteArray.size_set!] at hst'
    rw [← hbody, ByteArray.size_extract]
    omega
  obtain ⟨hp, hs⟩ := Snapshot.parse_storedBytes hv hraw hst
  have hpos : 0 < (s.storedHeader lib cfg).rawLen :=
    Nat.lt_of_lt_of_le Nat.one_pos
      ((one_le_rawLengthBounds _ _).trans (rawLengthBounds_payload hv cfg.order cfg.encoding).1)
  have hcases := decode_set!_eq_or hlz4 hp (compressionOfCode_code _)
    (by rw [hbody]; exact hcodec _) hpos rfl hs hdec
  rwa [(Header.order_boolY_of_flags (h := s.storedHeader lib cfg) rfl).1] at hcases

/-- The snapshot of `decode_boolYFlag_set`, with bit 1 of its flag byte set, decodes to the
snapshot with its flag negated. -/
theorem decode_byteChange_boolYFlag :
    let s : Snapshot := ⟨"v".toUTF8, #[⟨0x3FF0000000000000⟩], #[⟨0⟩], false, #[0]⟩
    let opts : List (Option EncoderOption) := [some (.compression 1), some (.indexEncoding 1)]
    let cfg : EncoderSettings := ⟨.little, .raw, .none⟩
    let lib := Libraries.standard
    let d := ((s.storedHeader lib cfg).bytes ++
      (cfg.compression.compress lib (s.payload cfg.order cfg.encoding)).toList).toByteArray
    let h' := { s with boolY := true }.storedHeader lib cfg
    let s' := { s with boolY := true }
    EncoderSettings.build opts = .ok cfg ∧ cfg.compression.Restores lib ∧
      lib.Lz4IgnoresCapacity ∧ s.encode lib opts = .ok d ∧
      Snapshot.decode lib (d.set! 5 2) = .ok (h', s') ∧
      (s' = s ∨ (5 = 5 ∧ (h'.order ≠ cfg.order ∨ s' = { s with boolY := !s.boolY })) ∨
        (5 = 6 ∧ h'.encoding ≠ cfg.encoding) ∨
        (8 ≤ 5 ∧ 5 < 12 ∧ cfg.encoding = .delta ∧ h'.count ≠ s.xs.size) ∨
        ((5 = 7 ∨ headerSize ≤ 5) ∧
          ∃ raw, Collides lib raw (s.payload cfg.order cfg.encoding) ∧
            parsePayload raw h' = .ok s')) := by
  intro s opts cfg lib d h' s'
  have hv : s.validate = .ok () := by decide
  have hraw : (s.payload cfg.order cfg.encoding).size ≤ 4294967295 := by decide +kernel
  have hd : s.encode lib opts = .ok d := Snapshot.encode_eq_ok_iff.mpr ⟨cfg, rfl, hv, hraw, rfl⟩
  have hflag : (2 : UInt8) = (s.storedHeader lib cfg).flags ^^^ Header.boolYFlag := by decide
  have hdec : Snapshot.decode lib (d.set! 5 2) = .ok (h', s') := by
    rw [hflag]
    exact decode_flipBoolY hv (Compression.restores_none lib) hraw (by decide +kernel)
  exact ⟨rfl, Compression.restores_none lib, Libraries.standard_lz4IgnoresCapacity, hd, hdec,
    decode_byteChange_eq_or rfl (Compression.restores_none lib)
      Libraries.standard_lz4IgnoresCapacity hd hdec⟩

end Decimation
