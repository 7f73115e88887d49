import Decimation.Proofs.Decode
/-!
# Re-encoding what decoding read

Decoding reads each part of a stored snapshot from a place of its own, and most parts have one
spelling only: the header's numbers are fixed-width, the name is a slice, each value is its eight
bytes and each raw row its four. Three things can be spelt in more than one way: the flag bits
beyond the first two, which decoding ignores; a variable-length number with a redundant last
group (a final byte of zero), which decoding accepts; and the stored form of a compressed
payload. Bytes free of the three are exactly what encoding writes for the snapshot they decode
to (`encode_decode_canonical`): under the byte order, index encoding and compression their
header records, encoding gives the bytes back.

The proof reads the payload back through its parser. `parsePayload_eq_ok_iff` says what a
successful parse read and where; `window_of_readUvarint_minimal` turns a number written in as few
bytes as its value needs back into those bytes; and `window_of_readDeltas` does the same for the
distances of delta rows, whose wrapping sums the rows' validity undoes.
-/

namespace Decimation

open Codec

variable {lib : Libraries}

/-! ## Minimal variable-length numbers -/

/-- The number at `pos` is written in as few bytes as its value needs, as `uvarintBytes` writes
it. -/
def MinimalAt (data : ByteArray) (pos : Nat) : Prop :=
  ∀ v q, readUvarint data pos = some (v, q) → q = pos + (uvarintBytes v).length

/-- The `count` distances `readDeltas` reads one after another from `pos` are each minimal. -/
def DeltasMinimal (data : ByteArray) (pos : Nat) : Nat → Prop
  | 0 => True
  | k + 1 => MinimalAt data pos ∧ ∀ v q, readUvarint data pos = some (v, q) → DeltasMinimal data q k

/-- Every variable-length number of a raw payload read under the header `h` is minimal: the
name length, and under the delta encoding each distance between rows, which start after the
name and the `2 * count` values. -/
def MinimalUvarints (raw : ByteArray) (h : Header) : Prop :=
  MinimalAt raw 0 ∧ ∀ n p, readUvarint raw 0 = some (n, p) → h.encoding = .delta →
    DeltasMinimal raw (p + n + 16 * h.count) h.count

/-- The window of a single byte inside the data. -/
lemma window_one {d : ByteArray} {p : Nat} (hp : p < d.size) :
    ByteOrder.window d p 1 = [d[p]] := by
  simp [ByteOrder.window, byteAt, hp]

/-- What `go` reads from `p` on is `acc` and a number `w` shifted by `shift`, in at least as
many bytes as `uvarintBytes w` has, and in exactly those when it is no longer. -/
lemma readUvarint_go_window (src : ByteArray) :
    ∀ (fuel p shift acc v q : Nat), readUvarint.go src p shift acc fuel = some (v, q) →
      ∃ w, v = acc + w * Nat.pow 2 shift ∧ (uvarintBytes w).length ≤ q - p ∧
        ((uvarintBytes w).length = q - p → ByteOrder.window src p (q - p) = uvarintBytes w) := by
  intro fuel
  induction fuel with
  | zero => intro p shift acc v q h; simp [readUvarint.go] at h
  | succ f ih =>
    intro p shift acc v q h
    obtain ⟨hp, ⟨hb, -, rfl, rfl⟩ | ⟨hb, h⟩⟩ := readUvarint_go_succ_eq_some h
    · -- the last byte: the number is the byte itself
      have hbytes : uvarintBytes src[p].toNat = [src[p]] := by
        rw [uvarintBytes_of_lt hb]
        simp
      refine ⟨src[p].toNat, rfl, by simp [hbytes], fun _ => ?_⟩
      rw [hbytes, Nat.add_sub_cancel_left, window_one hp]
    · -- a byte with the continuation bit: its low seven bits, then the rest seven bits higher
      obtain ⟨w, hv, hlen, hwin⟩ := ih _ _ _ _ _ h
      have hpq := (readUvarint_go_bounds src f (p + 1) _ _ _ _ h).1
      have hb256 : src[p].toNat < 256 := src[p].toNat_lt
      refine ⟨src[p].toNat - 128 + 128 * w, ?_, ?_, ?_⟩
      · rw [hv]
        have hpow : Nat.pow 2 (shift + 7) = 128 * Nat.pow 2 shift := by
          simp only [Nat.pow_eq, Nat.pow_add]
          omega
        rw [hpow, Nat.add_mul, Nat.mul_assoc, Nat.mul_left_comm w 128, Nat.add_assoc]
      · by_cases hw : w = 0
        · subst hw
          rw [uvarintBytes_of_lt (by omega)]
          simp only [List.length_singleton]
          omega
        · rw [uvarintBytes_of_ge (by omega)]
          have hdiv : (src[p].toNat - 128 + 128 * w) / 128 = w := by omega
          rw [List.length_cons, hdiv]
          omega
      · intro heq
        by_cases hw : w = 0
        · -- a zero rest would make the number one byte long, but two were read
          subst hw
          rw [uvarintBytes_of_lt (by omega)] at heq
          simp only [List.length_singleton] at heq
          omega
        · rw [uvarintBytes_of_ge (by omega)] at heq ⊢
          have hdiv : (src[p].toNat - 128 + 128 * w) / 128 = w := by omega
          have hmod : ((src[p].toNat - 128 + 128 * w) % 128 + 128).toUInt8 = src[p] := by
            apply UInt8.toNat_inj.mp
            simp only [Nat.toUInt8_eq, UInt8.toNat_ofNat']
            omega
          rw [List.length_cons, hdiv] at heq
          rw [hdiv, hmod, show q - p = 1 + (q - (p + 1)) by omega, ByteOrder.window_add,
            window_one hp, hwin (by omega)]
          rfl

/-- A number read at `pos` and written there in as few bytes as its value needs stands in the
data as `uvarintBytes` writes it. -/
theorem window_of_readUvarint_minimal {src : ByteArray} {pos v q : Nat}
    (h : readUvarint src pos = some (v, q)) (hmin : MinimalAt src pos) :
    ByteOrder.window src pos (uvarintBytes v).length = uvarintBytes v := by
  obtain ⟨w, hv, -, hwin⟩ := readUvarint_go_window src 10 pos 0 0 v q h
  have hw : v = w := by simpa using hv
  subst hw
  have hq := hmin v q h
  rw [show q - pos = (uvarintBytes v).length by omega] at hwin
  exact hwin rfl

/-- With `acc` below `2^shift`, what `go` reads with `fuel` steps left is below
`2^(shift + 7 fuel - 6)`: the last of ten bytes holds one bit. -/
lemma readUvarint_go_lt (src : ByteArray) :
    ∀ (fuel p shift acc v q : Nat), 0 < fuel → acc < Nat.pow 2 shift →
      readUvarint.go src p shift acc fuel = some (v, q) → v < Nat.pow 2 (shift + 7 * fuel - 6) := by
  intro fuel
  induction fuel with
  | zero => intro p shift acc v q h0; omega
  | succ f ih =>
    intro p shift acc v q _ hacc h
    have hmul : ∀ a b c : Nat, a ≤ b → a * Nat.pow 2 c ≤ b * Nat.pow 2 c :=
      fun a b c hab => Nat.mul_le_mul_right _ hab
    have hpow7 : Nat.pow 2 (shift + 7) = 128 * Nat.pow 2 shift := by
      simp only [Nat.pow_eq, Nat.pow_add]
      omega
    obtain ⟨hp, ⟨hb, hlast, rfl, rfl⟩ | ⟨hb, h⟩⟩ := readUvarint_go_succ_eq_some h
    · -- the last byte: below `128`, and at most `1` as the tenth
      by_cases hf : f = 0
      · subst hf
        have h1 := hmul _ _ shift (hlast rfl)
        have hpow1 : Nat.pow 2 (shift + 7 * (0 + 1) - 6) = 2 * Nat.pow 2 shift := by
          simp only [Nat.pow_eq, show shift + 7 * (0 + 1) - 6 = shift + 1 by omega, Nat.pow_succ]
          omega
        rw [hpow1]
        omega
      · have h127 := hmul _ _ shift (show src[p].toNat ≤ 127 by omega)
        have hle : Nat.pow 2 (shift + 7) ≤ Nat.pow 2 (shift + 7 * (f + 1) - 6) := by
          simp only [Nat.pow_eq]
          exact Nat.pow_le_pow_right (by decide) (by omega)
        omega
    · -- a continued byte: the sum so far stays below `2^(shift + 7)`
      have hb256 : src[p].toNat < 256 := src[p].toNat_lt
      have hf : 0 < f := by
        rcases Nat.eq_zero_or_pos f with rfl | hf
        · simp [readUvarint.go] at h
        · exact hf
      have hacc' : acc + (src[p].toNat - 128) * Nat.pow 2 shift < Nat.pow 2 (shift + 7) := by
        have := hmul _ _ shift (show src[p].toNat - 128 ≤ 127 by omega)
        omega
      have := ih _ _ _ _ _ hf hacc' h
      rwa [show shift + 7 + 7 * f - 6 = shift + 7 * (f + 1) - 6 by omega] at this

/-- Every number read is below `2^64`. -/
theorem readUvarint_lt {src : ByteArray} {pos v q : Nat} (h : readUvarint src pos = some (v, q)) :
    v < Nat.pow 2 64 :=
  readUvarint_go_lt src 10 pos 0 0 v q (by decide) (by decide) h

/-- One step of reading distances: a number `d` is read, and the rest is read from where it
ends, summing from `sum + d` wrapped to 64 bits, the first row. -/
lemma readDeltas_succ_eq_ok {data : ByteArray} {k pos sum : Nat} {rows : List Int} {q : Nat}
    (h : readDeltas data pos sum (k + 1) = .ok (rows, q)) :
    ∃ d p rest, readUvarint data pos = some (d, p) ∧
      readDeltas data p ((sum + d) % Nat.pow 2 64) k = .ok (rest, q) ∧
      rows = signed64 ((sum + d) % Nat.pow 2 64) :: rest := by
  rw [readDeltas] at h
  split at h
  · cases h
  · rename_i d p hd
    simp only [bind_eq_ok] at h
    obtain ⟨⟨rest, q'⟩, hrest, hq⟩ := h
    cases hq
    exact ⟨d, p, rest, hd, hrest, rfl⟩

/-- Reading distances ends at or after where it starts. -/
lemma le_of_readDeltas {data : ByteArray} :
    ∀ {k pos sum : Nat} {rows : List Int} {q : Nat},
      readDeltas data pos sum k = .ok (rows, q) → pos ≤ q := by
  intro k
  induction k with
  | zero =>
    intro pos sum rows q h
    cases h
    exact Nat.le_refl _
  | succ k ih =>
    intro pos sum rows q h
    obtain ⟨d, p, rest, hd, hrest, -⟩ := readDeltas_succ_eq_ok h
    have := (readUvarint_bounds hd).1
    have := ih hrest
    omega

/-- Distances read as minimal numbers whose sums from `sum` climb without passing `maxRow` stand
in the data as `rowBytes` writes the rows: each distance is the difference of two rows, since a
sum that wrapped past `2^64` would fall below the row before it. -/
theorem window_of_readDeltas {data : ByteArray} :
    ∀ {k pos sum : Nat} {rows : List Int} {q : Nat},
      readDeltas data pos sum k = .ok (rows, q) → DeltasMinimal data pos k →
      List.IsChain (· ≤ ·) ((sum : Int) :: rows) → (∀ r ∈ rows, r ≤ maxRow) →
      ByteOrder.window data pos (q - pos) = (rows.zip ((sum : Int) :: rows)).flatMap
        (fun (r, p) => uvarintBytes ((r - p) % (Nat.pow 2 64 : Int)).toNat) := by
  intro k
  induction k with
  | zero =>
    intro pos sum rows q h _ _ _
    cases h
    simp [ByteOrder.window]
  | succ k ih =>
    intro pos sum rows q h hmin hchain hmax
    obtain ⟨d, p, rest, hd, hrest, rfl⟩ := readDeltas_succ_eq_ok h
    obtain ⟨hmin0, hmins⟩ := hmin
    have hp : p = pos + (uvarintBytes d).length := hmin0 d p hd
    have hpq := le_of_readDeltas hrest
    have hd64 := readUvarint_lt hd
    have hsr := (List.isChain_cons_cons.mp hchain).1
    have hr := hmax _ List.mem_cons_self
    simp only [maxRow] at hr
    -- the sum is the row itself: a row at or above `2^63` would read as negative
    have hnext : (sum + d) % Nat.pow 2 64 < Nat.pow 2 63 := by
      by_contra hge
      simp only [signed64, if_neg hge] at hsr
      have := Nat.mod_lt (sum + d) (show 0 < Nat.pow 2 64 by decide)
      simp only [Nat.pow_eq] at hsr this hge
      omega
    have hs : signed64 ((sum + d) % Nat.pow 2 64) = (((sum + d) % Nat.pow 2 64 : Nat) : Int) :=
      signed64_of_lt hnext
    rw [hs] at hsr hr hchain
    have hdist : (((((sum + d) % Nat.pow 2 64 : Nat) : Int) - sum) % (Nat.pow 2 64 : Int)).toNat =
        d := by
      have h64 : (Nat.pow 2 64 : Int) = 18446744073709551616 := rfl
      have hn64 : Nat.pow 2 64 = 18446744073709551616 := rfl
      rw [hn64] at hd64 hsr ⊢
      rw [h64, Int.emod_eq_of_lt (by omega) (by omega)]
      omega
    have hwin := ih hrest (hmins d p hd) (List.isChain_cons_cons.mp hchain).2
      (fun r hr' => hmax r (List.mem_cons_of_mem _ hr'))
    rw [hs, List.zip_cons_cons, List.flatMap_cons]
    dsimp only
    rw [hdist, show q - pos = (uvarintBytes d).length + (q - p) by omega, ByteOrder.window_add,
      window_of_readUvarint_minimal hd hmin0, ← hp, hwin]

/-! ## Fixed-width parts read back into bytes -/

/-- Two windows side by side are one window. -/
lemma window_append {d : ByteArray} {pos pos' : Nat} (a b : Nat) (h : pos' = pos + a) :
    ByteOrder.window d pos a ++ ByteOrder.window d pos' b = ByteOrder.window d pos (a + b) := by
  rw [h, ByteOrder.window_add]

/-- A window inside the data is the slice over it. -/
lemma window_eq_extract {d : ByteArray} {pos n : Nat} (h : pos + n ≤ d.size) :
    ByteOrder.window d pos n = (d.extract pos (pos + n)).toList := by
  rw [ByteOrder.window_eq_take_drop _ _ _ h, ByteArray.toList_eq]
  simp

/-- `c` windows of `w` bytes one after another make the window of `w * c` bytes. -/
lemma flatMap_range_window (d : ByteArray) (pos w : Nat) : ∀ c,
    (List.range c).flatMap (fun i => ByteOrder.window d (pos + w * i) w) =
      ByteOrder.window d pos (w * c)
  | 0 => by simp [ByteOrder.window]
  | c + 1 => by
    rw [List.range_succ, List.flatMap_append, flatMap_range_window d pos w c, List.flatMap_singleton,
      window_append _ _ rfl, Nat.mul_succ]

/-- The values read from `pos` on, written back as their bits, are the bytes they were read
from. -/
theorem flatMap_readFloats (o : ByteOrder) (d : ByteArray) (pos c : Nat) :
    (readFloats o d pos c).toList.flatMap (fun v => o.bytes 8 v.bits.toNat) =
      ByteOrder.window d pos (8 * c) := by
  rw [← flatMap_range_window, readFloats, List.toList_toArray, List.flatMap_map]
  congr 1
  funext i
  rw [ByteOrder.toNat_read_toUInt64, ByteOrder.bytes_read]

/-- Raw rows read from `pos` on, written back in four bytes each, are the bytes they were read
from. -/
theorem rowBytes_raw_read (o : ByteOrder) (d : ByteArray) (pos c : Nat) :
    rowBytes o .raw ((List.range c).map fun i => (o.read d (pos + 4 * i) 4 : Int)) =
      ByteOrder.window d pos (4 * c) := by
  rw [← flatMap_range_window, rowBytes, List.flatMap_map]
  congr 1
  funext i
  -- a row read from four bytes is below `2^32`, so taking it modulo `2^32` keeps it
  have hlt := ByteOrder.read_lt o d (pos + 4 * i) 4
  have h32 : (Nat.pow 2 32 : Int) = ((Nat.pow 256 4 : Nat) : Int) := rfl
  rw [h32, Int.emod_eq_of_lt (by omega) (by omega), Int.toNat_natCast, ByteOrder.bytes_read]

/-! ## What a parsed payload read -/

/-- A payload that parses, with every variable-length number minimal, is the payload of the
snapshot it parses to, under the header's byte order and index encoding. -/
theorem payload_of_parsePayload {raw : ByteArray} {h : Header} {s : Snapshot}
    (hp : parsePayload raw h = .ok s) (hmin : MinimalUvarints raw h) :
    s.payload h.order h.encoding = raw := by
  obtain ⟨n, p, rows, hn, hsize, hrows, rfl, hv⟩ := parsePayload_eq_ok_iff.mp hp
  obtain ⟨hmin0, hmind⟩ := hmin
  obtain ⟨-, -, -, -, hbad⟩ := Snapshot.validate_eq_ok.mp hv
  have hpn : p = (uvarintBytes n).length := by simpa using hmin0 n p hn
  have hname : (raw.extract p (p + n)).size = n := by
    rw [ByteArray.size_extract]
    omega
  have hR : rowBytes h.order h.encoding rows = ByteOrder.window raw (p + n + h.count * 8 + h.count * 8)
      (raw.size - (p + n + h.count * 8 + h.count * 8)) := by
    unfold RowsAt at hrows
    split at hrows
    · rename_i he
      obtain ⟨hend, rfl⟩ := hrows
      rw [he, rowBytes_raw_read, show raw.size - (p + n + h.count * 8 + h.count * 8) = 4 * h.count by
        omega]
    · rename_i he
      have hwin := window_of_readDeltas hrows
        (by rw [show p + n + h.count * 8 + h.count * 8 = p + n + 16 * h.count by omega]
            exact hmind n p hn he)
        (by simpa using isChain_rows_of_firstBadRow hbad)
        (fun r hr => (firstBadRow_eq_none_bounds hbad r hr).2)
      rw [he, rowBytes, hwin, Nat.cast_zero]
  -- the payload is its five windows side by side
  have hall : raw.data.toList = ByteOrder.window raw 0 p ++ ByteOrder.window raw p n ++
      ByteOrder.window raw (p + n) (8 * h.count) ++
      ByteOrder.window raw (p + n + h.count * 8) (8 * h.count) ++
      ByteOrder.window raw (p + n + h.count * 8 + h.count * 8)
        (raw.size - (p + n + h.count * 8 + h.count * 8)) := by
    rw [window_append _ _ (by omega), window_append _ _ (by omega), window_append _ _ (by omega),
      window_append _ _ (by omega), ByteOrder.window_eq_take_drop _ _ _ (by omega)]
    simp only [List.drop_zero]
    rw [List.take_of_length_le (by simp; omega)]
  have hU : ByteOrder.window raw 0 p = uvarintBytes n := by
    rw [hpn]
    exact window_of_readUvarint_minimal hn hmin0
  apply ByteArray.ext
  apply Array.toList_inj.mp
  rw [hall, Snapshot.payload, List.toList_toArray]
  dsimp only
  rw [hname, hU, window_eq_extract (by omega), flatMap_readFloats, flatMap_readFloats,
    hR]

/-! ## The header and the stored bytes -/

/-- A flag byte that uses only the two defined bits is the one encoding writes for the byte
order and boolean flag it states. -/
lemma flags_of_le_three (f : UInt8) (hf : f ≤ 3) :
    ((if (if f &&& Header.bigEndianFlag != 0 then ByteOrder.big else .little) = .big then
        Header.bigEndianFlag else 0) |||
      (if f &&& Header.boolYFlag != 0 then Header.boolYFlag else 0)) = f := by
  have h3 : f.toNat ≤ 3 := UInt8.le_iff_toNat_le.mp hf
  obtain ⟨n, -, rfl⟩ : ∃ n : Fin 4, (n : Nat) = f.toNat ∧ f = UInt8.ofNat n :=
    ⟨⟨f.toNat, by omega⟩, rfl, by simp⟩
  revert n
  decide

/-- A parsed header states a raw length below `2^32`: it is read from four bytes. -/
lemma Header.rawLen_lt_of_parse {d : ByteArray} {h : Header} (hp : Header.parse d = .ok h) :
    h.rawLen < UInt32.size := by
  rw [(Header.readFrom_of_parse hp).rawLen]
  exact ByteOrder.read_lt _ _ _ _

/-- Storing a payload as it is keeps it. -/
lemma Compression.compress_none (b : ByteArray) : Compression.none.compress lib b = b := by
  unfold Compression.compress
  split
  · rename_i h
    exact (ByteArray.ext (Array.eq_empty_of_size_eq_zero h)).symm
  · rfl

/-- A payload stored as it is restores to the stored bytes. -/
lemma Compression.eq_of_restore_none {b r : ByteArray} {n : Int}
    (h : Compression.none.restore lib b n = .ok r) : r = b := by
  simp only [Compression.restore] at h
  split at h
  · cases h
  · exact (Except.ok.inj h).symm

/-- The options naming a byte order, a known index encoding code and the code of no compression
build the settings of those three. -/
lemma EncoderSettings.build_header (o : ByteOrder) (e : IndexEncoding) :
    EncoderSettings.build
      [some (.order o), some (.indexEncoding e.code), some (.compression Compression.none.code)] =
      .ok ⟨o, e, .none⟩ := by
  cases e <;> rfl

/-- Re-encoding is exact: bytes that decode, whose flag byte uses only its two defined bits,
whose payload is stored uncompressed and whose variable-length numbers are all minimal are what
encoding writes for the snapshot they decode to, under the byte order, index encoding and
compression their header records. -/
theorem encode_decode_canonical {d : ByteArray} {h : Header} {s : Snapshot}
    (hd : Snapshot.decode lib d = .ok (h, s)) (hflags : h.flags ≤ 3)
    (hcomp : h.compression = Compression.none.code)
    (hmin : MinimalUvarints (d.extract headerSize d.size) h) :
    s.encode lib [some (.order h.order), some (.indexEncoding h.encoding.code),
        some (.compression h.compression)] = .ok d := by
  obtain ⟨hp, hst, -, -, k, raw, hk, hr, hrs, hsum, hpp, hname⟩ :=
    Snapshot.decode_eq_ok_iff.mp hd
  rw [hcomp, compressionOfCode_code] at hk
  cases hk
  -- stored as it is, the raw payload is the rest of the bytes, and what the snapshot writes
  obtain rfl := Compression.eq_of_restore_none hr
  have hpay := payload_of_parsePayload hpp hmin
  obtain ⟨hv, hcount, hbool, -⟩ := parsePayload_ok hpp
  have hraw := Header.rawLen_lt_of_parse hp
  have hheader : s.storedHeader lib ⟨h.order, h.encoding, .none⟩ = h := by
    have hflags' : ((if h.order = .big then Header.bigEndianFlag else 0) |||
        (if h.boolY = true then Header.boolYFlag else 0)) = h.flags :=
      flags_of_le_three h.flags hflags
    simp only [Snapshot.storedHeader, hpay, Compression.compress_none, hbool, hflags', hcount,
      hname, hsum, ← hcomp]
    obtain ⟨flags, enc, comp, count, stored, rawLen, nameId, checksum⟩ := h
    simp only [Header.mk.injEq, true_and, and_true] at hst hrs ⊢
    exact ⟨hst, hrs⟩
  apply Snapshot.encode_eq_ok_iff.mpr
  refine ⟨⟨h.order, h.encoding, .none⟩, by rw [hcomp]; exact EncoderSettings.build_header _ _, hv,
    by rw [hpay, hrs]; exact Nat.le_of_lt_succ hraw, ?_⟩
  dsimp only
  rw [hheader, hpay, Compression.compress_none, Header.bytes_of_parse hp, ByteArray.toList_eq]
  apply ByteArray.ext
  simp only [ByteArray.data_extract, Array.toList_extract,
    List.take_of_length_le (by simp : (d.data.toList.drop headerSize).length ≤ d.size - headerSize),
    List.take_append_drop, List.data_toByteArray, Array.toArray_toList]

/-- The bytes after a header are the bytes that follow it. -/
theorem Header.extract_bytes_append (h : Header) (rest : ByteArray) :
    (h.bytes ++ rest.toList).toByteArray.extract headerSize
      (h.bytes ++ rest.toList).toByteArray.size = rest := by
  have hlen : h.bytes.length = headerSize := by
    simp [Header.bytes, headerSize, snapshotMagic]
  have := extract_toByteArray_mid h.bytes rest.toList []
  simp only [List.append_nil, ByteArray.toList_toByteArray, hlen] at this
  rwa [List.size_toByteArray, List.length_append, hlen]

/-- The bytes encoding writes for a valid snapshot open with the header it wrote, and its raw
payload parses under that header to the snapshot, when the stored payload fits its 32 bits. -/
theorem Snapshot.parse_storedBytes {s : Snapshot} {cfg : EncoderSettings}
    (hv : s.validate = .ok ()) (hraw : (s.payload cfg.order cfg.encoding).size ≤ 4294967295)
    (hst : (cfg.compression.compress lib (s.payload cfg.order cfg.encoding)).size < UInt32.size) :
    Header.parse ((s.storedHeader lib cfg).bytes ++
        (cfg.compression.compress lib (s.payload cfg.order cfg.encoding)).toList).toByteArray =
        .ok (s.storedHeader lib cfg) ∧
      parsePayload (s.payload cfg.order cfg.encoding) (s.storedHeader lib cfg) = .ok s := by
  have hfl := Header.order_boolY_of_flags (h := s.storedHeader lib cfg) rfl
  obtain ⟨-, -, -, hn, -⟩ := Snapshot.validate_eq_ok.mp hv
  refine ⟨Header.parse_bytes_append (s.storedHeader lib cfg) _
    (show s.xs.size < 4294967296 by omega)
    hst (show (s.payload cfg.order cfg.encoding).size < 4294967296 by omega), ?_⟩
  exact parsePayload_payload s _ _ _ hv hfl.1 rfl rfl hfl.2

/-- The bytes encoding writes for a valid snapshot decode to it, with the header encoding wrote,
when the compression restores what it compresses and the stored payload fits its 32 bits. -/
theorem decode_storedBytes {s : Snapshot} {cfg : EncoderSettings} (hv : s.validate = .ok ())
    (hcodec : cfg.compression.Restores lib)
    (hraw : (s.payload cfg.order cfg.encoding).size ≤ 4294967295)
    (hst : (cfg.compression.compress lib (s.payload cfg.order cfg.encoding)).size < UInt32.size) :
    Snapshot.decode lib ((s.storedHeader lib cfg).bytes ++
      (cfg.compression.compress lib (s.payload cfg.order cfg.encoding)).toList).toByteArray =
      .ok (s.storedHeader lib cfg, s) := by
  have hbody := Header.extract_bytes_append (s.storedHeader lib cfg)
    (cfg.compression.compress lib (s.payload cfg.order cfg.encoding))
  obtain ⟨hp, hs⟩ := Snapshot.parse_storedBytes hv hraw hst
  have hbounds := rawLengthBounds_payload hv cfg.order cfg.encoding
  exact Snapshot.decode_eq_ok_iff.mpr ⟨hp, by rw [hbody]; rfl, hbounds.1, hbounds.2, cfg.compression,
    s.payload cfg.order cfg.encoding, compressionOfCode_code _, by rw [hbody]; exact hcodec _, rfl,
    rfl, hs, rfl⟩

/-- A big-endian snapshot of raw rows whose first x value is a signalling NaN with payload 1
and whose y values are `-0` and a quiet NaN is written back byte for byte. -/
theorem encode_decode_signalingNaN :
    let s : Snapshot := ⟨"v".toUTF8, #[⟨0x7FF0000000000001⟩, ⟨0x3FF8000000000000⟩],
      #[⟨0x8000000000000000⟩, ⟨0x7FF8000000000001⟩], false, #[3, 260]⟩
    let cfg : EncoderSettings := ⟨.big, .raw, .none⟩
    let lib := Libraries.standard
    let h := s.storedHeader lib cfg
    let d := (h.bytes ++
      (cfg.compression.compress lib (s.payload cfg.order cfg.encoding)).toList).toByteArray
    Snapshot.decode lib d = .ok (h, s) ∧ h.flags ≤ 3 ∧
      h.compression = Compression.none.code ∧ MinimalUvarints (d.extract headerSize d.size) h ∧
      s.encode lib [some (.order h.order), some (.indexEncoding h.encoding.code),
        some (.compression h.compression)] = .ok d := by
  intro s cfg lib h d
  have hd : Snapshot.decode lib d = .ok (h, s) :=
    decode_storedBytes rfl (Compression.restores_none lib) (by decide +kernel) (by decide +kernel)
  -- the name length is the one variable-length number of a payload of raw rows
  have hmin : MinimalUvarints (d.extract headerSize d.size) h := by
    have hlen : readUvarint (d.extract headerSize d.size) 0 = some (1, 1) := by decide +kernel
    refine ⟨fun v q hr => ?_, fun _ _ _ he => nomatch he⟩
    rw [hlen] at hr
    cases hr
    rw [uvarintBytes_of_lt (by decide)]
    rfl
  exact ⟨hd, by decide +kernel, rfl, hmin, encode_decode_canonical hd (by decide +kernel) rfl hmin⟩

end Decimation
