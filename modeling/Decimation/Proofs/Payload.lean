import Decimation.Proofs.FloatBits
import Decimation.Proofs.Varint
import Decimation.Proofs.Except
/-!
# Reading back a payload

Parsing the payload of a valid snapshot gives the snapshot back (`parsePayload_payload`), under
either byte order and either index encoding, as long as the header read with it states the
same byte order, index encoding, number of points and boolean flag.

A payload is five parts laid end to end: the name length, the name, the x bits, the y bits and
the rows. Each part is read back from its own offset, whatever stands before and after it:
the name length by `readUvarint_uvarintBytes`, the name as a slice (`extract_toByteArray_mid`),
the floats eight bytes at a time (`readFloats_flatMap`), raw rows
four bytes at a time (`read_rowBytes_raw`), and delta rows by adding the distances up
(`readDeltas_flatMap`). What makes the rows come back is validity: every row lies in
`[0, maxRow]` and each exceeds the one before, so raw rows fit their 32 bits and the distances
are the non-negative numbers the writer wrote.
-/

namespace Decimation

open Codec

/-! ## Byte arrays as lists -/

theorem toList_loop (bs : ByteArray) (i : Nat) (r : List UInt8) :
    ByteArray.toList.loop bs i r = r.reverse ++ bs.data.toList.drop i := by
  -- the loop counts up from `i`; the induction is on the bytes it has left
  induction h : bs.size - i generalizing i r with
  | zero =>
    have hle : bs.data.toList.length ≤ i := by
      simp only [ByteArray.size] at h
      simp only [Array.length_toList]
      omega
    rw [ByteArray.toList.loop, if_neg (by omega), List.drop_eq_nil_of_le hle, List.append_nil]
  | succ k ih =>
    have hi : i < bs.data.toList.length := by
      simp only [ByteArray.size] at h
      simp only [Array.length_toList]
      omega
    rw [ByteArray.toList.loop, if_pos (by omega), ih (i + 1) _ (by omega),
      List.drop_eq_getElem_cons hi]
    simp [ByteArray.get!, getElem!_pos bs.data i (by simpa using hi)]

theorem ByteArray.toList_eq (bs : ByteArray) : bs.toList = bs.data.toList := by
  simp [ByteArray.toList, toList_loop]

@[simp]
theorem ByteArray.toList_toByteArray (bs : ByteArray) : bs.toList.toByteArray = bs := by
  apply ByteArray.ext
  simp [ByteArray.toList_eq]

theorem mk_toArray (l : List UInt8) : (⟨l.toArray⟩ : ByteArray) = l.toByteArray :=
  ByteArray.ext (by simp)

/-- The slice over the middle part of a list is that part. -/
theorem extract_toByteArray_mid (pre mid post : List UInt8) :
    (pre ++ mid ++ post).toByteArray.extract pre.length (pre.length + mid.length) =
      mid.toByteArray := by
  apply ByteArray.ext
  simp

/-! ## Fixed-width parts -/

theorem length_flatMap_le {α β : Type} (g : α → List β) (w : Nat) :
    ∀ (l : List α), (∀ a ∈ l, (g a).length ≤ w) → (l.flatMap g).length ≤ w * l.length
  | [], _ => by simp
  | a :: l, h => by
    have ha := h a (by simp)
    have hl := length_flatMap_le g w l (fun b hb => h b (by simp [hb]))
    simp only [List.flatMap_cons, List.length_append, List.length_cons, Nat.mul_succ]
    omega

theorem le_length_flatMap {α β : Type} (g : α → List β) (w : Nat) :
    ∀ (l : List α), (∀ a ∈ l, w ≤ (g a).length) → w * l.length ≤ (l.flatMap g).length
  | [], _ => by simp
  | a :: l, h => by
    have ha := h a (by simp)
    have hl := le_length_flatMap g w l (fun b hb => h b (by simp [hb]))
    simp only [List.flatMap_cons, List.length_append, List.length_cons, Nat.mul_succ]
    omega

theorem length_flatMap_const {α β : Type} (g : α → List β) (w : Nat)
    (hg : ∀ a, (g a).length = w) (l : List α) : (l.flatMap g).length = w * l.length :=
  Nat.le_antisymm (length_flatMap_le g w l fun a _ => (hg a).le)
    (le_length_flatMap g w l fun a _ => (hg a).ge)

/-- In parts of `w` bytes each, the `i`-th part starts `w * i` bytes in. -/
theorem window_flatMap {α : Type} (g : α → List UInt8) (w : Nat) (hg : ∀ a, (g a).length = w)
    (pre post : List UInt8) (l : List α) (i : Nat) (hi : i < l.length) :
    ByteOrder.window (pre ++ l.flatMap g ++ post).toByteArray (pre.length + w * i) w = g l[i] := by
  have hsplit : l.flatMap g = (l.take i).flatMap g ++ (g l[i] ++ (l.drop (i + 1)).flatMap g) := by
    rw [← List.flatMap_cons, ← List.drop_eq_getElem_cons hi, ← List.flatMap_append,
      List.take_append_drop]
  apply ByteOrder.window_of_split _ (pre ++ (l.take i).flatMap g) (g l[i])
    ((l.drop (i + 1)).flatMap g ++ post)
  · simp [hsplit]
  · simp [length_flatMap_const g w hg, Nat.min_eq_left hi.le]
  · exact hg _

theorem length_floatBytes (o : ByteOrder) (vs : List Float64) :
    (vs.flatMap fun v => o.bytes 8 v.bits.toNat).length = 8 * vs.length :=
  length_flatMap_const _ 8 (fun _ => ByteOrder.length_bytes _ _ _) vs

/-- Floats stored as their bits are read back, wherever they stand. -/
theorem readFloats_flatMap (o : ByteOrder) (pre post : List UInt8) (vs : List Float64) :
    readFloats o (pre ++ vs.flatMap (fun v => o.bytes 8 v.bits.toNat) ++ post).toByteArray
      pre.length vs.length = vs.toArray := by
  rw [readFloats]
  congr 1
  apply List.ext_getElem (by simp)
  intro i hi _
  simp only [List.getElem_map, List.getElem_range]
  rw [ByteOrder.read,
    window_flatMap _ 8 (fun _ => ByteOrder.length_bytes _ _ _) _ _ _ _ (by simpa using hi),
    ByteOrder.value_bytes, Nat.mod_eq_of_lt vs[i].bits.toNat_lt,
    show vs[i].bits.toNat.toUInt64 = vs[i].bits from UInt64.ofNat_toNat]

theorem natCast_mod_pow32 {x : Int} (h0 : 0 ≤ x) (h1 : x < (Nat.pow 2 32 : Int)) :
    (((x % (Nat.pow 2 32 : Int)).toNat % Nat.pow 256 4 : Nat) : Int) = x := by
  have h256 : Nat.pow 256 4 = Nat.pow 2 32 := rfl
  rw [h256, Int.emod_eq_of_lt h0 h1]
  generalize Nat.pow 2 32 = m at *
  rw [Nat.mod_eq_of_lt (by omega)]
  omega

theorem length_rowBytes_raw (o : ByteOrder) (rows : List Int) :
    (rowBytes o .raw rows).length = 4 * rows.length :=
  length_flatMap_const _ 4 (fun _ => ByteOrder.length_bytes _ _ _) rows

/-- Rows in `[0, maxRow]` written in four bytes each are read back. -/
theorem read_rowBytes_raw (o : ByteOrder) (pre post : List UInt8) (rows : List Int)
    (hr : ∀ r ∈ rows, 0 ≤ r ∧ r ≤ maxRow) :
    (List.range rows.length).map (fun i =>
      (o.read (pre ++ rowBytes o .raw rows ++ post).toByteArray (pre.length + 4 * i) 4 : Int)) =
      rows := by
  apply List.ext_getElem (by simp)
  intro i hi _
  simp only [List.getElem_map, List.getElem_range]
  have hri := hr rows[i] (List.getElem_mem _)
  rw [ByteOrder.read, rowBytes,
    window_flatMap _ 4 (fun _ => ByteOrder.length_bytes _ _ _) _ _ _ _ (by simpa using hi),
    ByteOrder.value_bytes]
  exact natCast_mod_pow32 hri.1 (by simp only [maxRow] at hri; simp only [Nat.pow_eq]; omega)

/-! ## Delta-encoded rows -/

theorem signed64_of_lt {n : Nat} (h : n < Nat.pow 2 63) : signed64 n = n := by
  simp [signed64, h]

/-- Rows that climb from `p` without passing `maxRow`, written as distances, are read back by
adding the distances to `p`. -/
theorem readDeltas_flatMap (rows : List Int) : ∀ (pre post : List UInt8) (p : Nat),
    List.IsChain (· ≤ ·) ((p : Int) :: rows) → (∀ r ∈ rows, r ≤ maxRow) →
    readDeltas (pre ++ (rows.zip ((p : Int) :: rows)).flatMap (fun (r, q) =>
        uvarintBytes ((r - q) % (Nat.pow 2 64 : Int)).toNat) ++ post).toByteArray
      pre.length p rows.length =
      .ok (rows, pre.length + ((rows.zip ((p : Int) :: rows)).flatMap (fun (r, q) =>
        uvarintBytes ((r - q) % (Nat.pow 2 64 : Int)).toNat)).length) := by
  induction rows with
  | nil => intro pre post p _ _; simp [readDeltas]
  | cons r rs ih =>
    intro pre post p hchain hmax
    have hpr : (p : Int) ≤ r := (List.isChain_cons_cons.mp hchain).1
    have hrest : List.IsChain (· ≤ ·) (r :: rs) := (List.isChain_cons_cons.mp hchain).2
    have hr : r ≤ maxRow := hmax r (by simp)
    simp only [maxRow] at hr
    -- the distance written is the plain difference, and adding it to `p` gives `r`
    have hd : ((r - p) % (Nat.pow 2 64 : Int)).toNat = r.toNat - p := by
      have h64 : (Nat.pow 2 64 : Int) = 18446744073709551616 := rfl
      rw [h64, Int.emod_eq_of_lt (by omega) (by omega)]
      omega
    have hnext : (p + (r.toNat - p)) % Nat.pow 2 64 = r.toNat := by
      simp only [Nat.pow_eq]
      omega
    have hr' : ((r.toNat : Nat) : Int) = r := by omega
    have hread := readUvarint_uvarintBytes pre
      ((rs.zip (r :: rs)).flatMap (fun (r, q) =>
        uvarintBytes ((r - q) % (Nat.pow 2 64 : Int)).toNat) ++ post) (r.toNat - p)
      (by simp only [Nat.pow_eq]; omega)
    have hih := ih (pre ++ uvarintBytes (r.toNat - p)) post r.toNat (by rw [hr']; exact hrest)
      (fun q hq => hmax q (by simp [hq]))
    rw [hr'] at hih
    simp only [List.zip_cons_cons, List.flatMap_cons, List.length_cons, hd] at hih ⊢
    simp only [List.append_assoc, List.length_append] at hread hih ⊢
    rw [readDeltas, hread]
    dsimp only
    rw [hnext, hih, signed64_of_lt (by simp only [Nat.pow_eq]; omega), hr']
    simp only [bind, Except.bind, pure, Except.pure, Nat.add_assoc]

/-! ## Valid snapshots -/

/-- What validation checks, as one statement. -/
theorem Snapshot.validate_eq_ok {s : Snapshot} : s.validate = .ok () ↔
    s.name.size ≤ maxNameLength ∧ s.ys.size = s.xs.size ∧ s.rows.size = s.xs.size ∧
      s.xs.size ≤ 4294967295 ∧ firstBadRow s.rows.toList none 0 = none := by
  unfold Snapshot.validate
  dsimp only
  by_cases h1 : s.name.size > maxNameLength
  · simp [h1]
  by_cases h2 : s.ys.size ≠ s.xs.size ∨ s.rows.size ≠ s.xs.size
  · simp only [h1, h2, if_false, if_true]
    simp
    omega
  by_cases h3 : s.xs.size > 4294967295
  · simp only [h1, h2, h3, if_false, if_true]
    simp
    omega
  simp only [h1, h2, h3, if_false]
  split <;> simp_all

theorem firstBadRow_eq_none_bounds {rs : List Int} {prev : Option Int} {pos : Nat}
    (h : firstBadRow rs prev pos = none) : ∀ r ∈ rs, 0 ≤ r ∧ r ≤ maxRow := by
  induction rs generalizing prev pos with
  | nil => simp
  | cons r rs ih =>
    unfold firstBadRow at h
    split at h
    · cases h
    · have hrest : firstBadRow rs (some r) (pos + 1) = none := by
        cases prev with
        | none => exact h
        | some p =>
          simp only at h
          split at h
          · cases h
          · exact h
      intro q hq
      rcases List.mem_cons.mp hq with rfl | hq
      · omega
      · exact ih hrest q hq

theorem isChain_of_increasing {rs : List Int} {p : Int} (h : Increasing rs (some p)) :
    List.IsChain (· < ·) (p :: rs) := by
  induction rs generalizing p with
  | nil => simp
  | cons r rs ih => exact List.IsChain.cons_cons (h.1 p rfl) (ih h.2)

/-- The rows of a valid snapshot climb from zero. -/
theorem isChain_rows_of_firstBadRow {rs : List Int} (h : firstBadRow rs none 0 = none) :
    List.IsChain (· ≤ ·) ((0 : Int) :: rs) := by
  cases rs with
  | nil => simp
  | cons r rs =>
    have hr := (firstBadRow_eq_none_bounds h r (by simp)).1
    have hinc := (increasing_of_firstBadRow _ _ _ h).2
    exact List.IsChain.cons_cons hr ((isChain_of_increasing hinc).imp fun _ _ => Int.le_of_lt)

/-- The delta-encoded rows of a valid snapshot are read back, after any bytes. -/
theorem readDeltas_rowBytes (o : ByteOrder) (pre : List UInt8) {rows : List Int}
    (h : firstBadRow rows none 0 = none) :
    readDeltas (pre ++ rowBytes o .delta rows).toByteArray pre.length 0 rows.length =
      .ok (rows, pre.length + (rowBytes o .delta rows).length) := by
  have := readDeltas_flatMap rows pre [] 0 (by simpa using isChain_rows_of_firstBadRow h)
    (fun r hr => (firstBadRow_eq_none_bounds h r hr).2)
  simpa only [rowBytes, Nat.cast_zero, List.append_nil] using this

/-! ## What a parse reads -/

/-- The rows of a payload read under the header `h` from `pos`, ending exactly where the payload
ends: four bytes each in the header's byte order, or distances added up from zero. -/
def RowsAt (raw : ByteArray) (h : Header) (pos : Nat) (rows : List Int) : Prop :=
  match h.encoding with
  | .raw => pos + 4 * h.count = raw.size ∧
      rows = (List.range h.count).map fun i => (h.order.read raw (pos + 4 * i) 4 : Int)
  | .delta => readDeltas raw pos 0 h.count = .ok (rows, raw.size)

/-- A payload parses exactly when its name length is read, the name and the values fit, the rows
after them end the payload, and the snapshot so read is valid. -/
theorem parsePayload_eq_ok_iff {raw : ByteArray} {h : Header} {s : Snapshot} :
    parsePayload raw h = .ok s ↔ ∃ n p rows, readUvarint raw 0 = some (n, p) ∧
      p + n + h.count * 8 + h.count * 8 ≤ raw.size ∧
      RowsAt raw h (p + n + h.count * 8 + h.count * 8) rows ∧
      s = ⟨raw.extract p (p + n), readFloats h.order raw (p + n) h.count,
        readFloats h.order raw (p + n + h.count * 8) h.count, h.boolY, rows.toArray⟩ ∧
      s.validate = .ok () := by
  unfold parsePayload RowsAt
  cases hn : readUvarint raw 0 with
  | none => simp [bind, Except.bind, throw, throwThe, MonadExceptOf.throw]
  | some r =>
    obtain ⟨n, p⟩ := r
    cases he : h.encoding with
    | raw =>
      simp only [bind_eq_ok, pure, Except.pure, Prod.exists, Except.ok.injEq, Prod.mk.injEq,
        takeBytes_eq_ok_iff, takeFloats_eq_ok_iff, takeWords_eq_ok_iff, ↓ite_throw_bind,
        ite_error_eq_ok, mapError_eq_ok, ne_eq, not_not, Option.some.injEq]
      constructor
      · rintro ⟨_, _, ⟨rfl, rfl⟩, _, _, ⟨-, rfl, rfl⟩, _, _, ⟨-, rfl, rfl⟩, _, _, ⟨-, rfl, rfl⟩,
          _, _, ⟨-, rfl, rfl⟩, hend, _, hv, rfl⟩
        exact ⟨n, p, _, ⟨rfl, rfl⟩, by omega, ⟨by omega, rfl⟩, rfl, hv⟩
      · rintro ⟨_, _, rows, ⟨rfl, rfl⟩, hfit, ⟨hend, rfl⟩, rfl, hv⟩
        exact ⟨n, p, ⟨rfl, rfl⟩, _, _, ⟨by omega, rfl, rfl⟩, _, _, ⟨by omega, rfl, rfl⟩, _, _,
          ⟨by omega, rfl, rfl⟩, _, _, ⟨by omega, rfl, rfl⟩, by omega, (), hv, rfl⟩
    | delta =>
      simp only [bind_eq_ok, pure, Except.pure, Prod.exists, Except.ok.injEq, Prod.mk.injEq,
        takeBytes_eq_ok_iff, takeFloats_eq_ok_iff, ↓ite_throw_bind, ite_error_eq_ok,
        mapError_eq_ok, ne_eq, not_not, Option.some.injEq]
      constructor
      · rintro ⟨_, _, ⟨rfl, rfl⟩, _, _, ⟨-, rfl, rfl⟩, _, _, ⟨-, rfl, rfl⟩, _, _, ⟨hys, rfl, rfl⟩,
          _, _, hread, rfl, _, hv, rfl⟩
        exact ⟨n, p, _, ⟨rfl, rfl⟩, hys, hread, rfl, hv⟩
      · rintro ⟨_, _, rows, ⟨rfl, rfl⟩, hfit, hread, rfl, hv⟩
        exact ⟨n, p, ⟨rfl, rfl⟩, _, _, ⟨by omega, rfl, rfl⟩, _, _, ⟨by omega, rfl, rfl⟩, _, _,
          ⟨hfit, rfl, rfl⟩, _, _, hread, rfl, (), hv, rfl⟩

/-! ## The payload -/

/-- The payload of a valid snapshot parses back to the snapshot under a header that states its
byte order, index encoding, number of points and boolean flag. -/
theorem parsePayload_payload (s : Snapshot) (o : ByteOrder) (enc : IndexEncoding) (h : Header)
    (hv : s.validate = .ok ()) (ho : h.order = o) (he : h.encoding = enc)
    (hc : h.count = s.xs.size) (hb : h.boolY = s.boolY) :
    parsePayload (s.payload o enc) h = .ok s := by
  obtain ⟨hname, hys, hrows, hcount, hbad⟩ := Snapshot.validate_eq_ok.mp hv
  rw [Snapshot.payload, mk_toArray]
  generalize hU : uvarintBytes s.name.size = U
  generalize hX : s.xs.toList.flatMap (fun v => o.bytes 8 v.bits.toNat) = X
  generalize hY : s.ys.toList.flatMap (fun v => o.bytes 8 v.bits.toNat) = Y
  have hXlen : X.length = 8 * s.xs.size := by rw [← hX, length_floatBytes]; simp
  have hYlen : Y.length = 8 * s.xs.size := by rw [← hY, length_floatBytes]; simp [hys]
  have hpre : (U ++ s.name.toList ++ X ++ Y).length =
      U.length + s.name.size + s.xs.size * 8 + s.xs.size * 8 := by
    simp [hXlen, hYlen, ByteArray.toList_eq]
    omega
  have hlen : readUvarint (U ++ s.name.toList ++ X ++ Y ++ rowBytes o enc s.rows.toList).toByteArray
      0 = some (s.name.size, U.length) := by
    have := readUvarint_uvarintBytes [] (s.name.toList ++ X ++ Y ++ rowBytes o enc s.rows.toList)
      s.name.size (by simp only [maxNameLength] at hname; simp only [Nat.pow_eq]; omega)
    simpa [hU] using this
  have hsize : (U ++ s.name.toList ++ X ++ Y ++ rowBytes o enc s.rows.toList).toByteArray.size =
      U.length + s.name.size + s.xs.size * 8 + s.xs.size * 8 +
        (rowBytes o enc s.rows.toList).length := by
    rw [List.size_toByteArray, List.length_append, hpre]
  have hext : (U ++ s.name.toList ++ X ++ Y ++ rowBytes o enc s.rows.toList).toByteArray.extract
      U.length (U.length + s.name.size) = s.name := by
    have := extract_toByteArray_mid U s.name.toList (X ++ Y ++ rowBytes o enc s.rows.toList)
    rw [ByteArray.toList_toByteArray,
      show s.name.toList.length = s.name.size by simp [ByteArray.toList_eq]] at this
    simpa only [List.append_assoc] using this
  have hxs : readFloats o (U ++ s.name.toList ++ X ++ Y ++ rowBytes o enc s.rows.toList).toByteArray
      (U.length + s.name.size) s.xs.size = s.xs := by
    have := readFloats_flatMap o (U ++ s.name.toList) (Y ++ rowBytes o enc s.rows.toList) s.xs.toList
    rw [hX] at this
    simpa [ByteArray.toList_eq] using this
  have hys' : readFloats o (U ++ s.name.toList ++ X ++ Y ++ rowBytes o enc s.rows.toList).toByteArray
      (U.length + s.name.size + s.xs.size * 8) s.xs.size = s.ys := by
    have := readFloats_flatMap o (U ++ s.name.toList ++ X) (rowBytes o enc s.rows.toList) s.ys.toList
    have hpos : (U ++ s.name.toList ++ X).length = U.length + s.name.size + s.xs.size * 8 := by
      simp [hXlen, ByteArray.toList_eq]
      omega
    rw [hY, hpos] at this
    simpa only [@Array.length_toList _ s.ys, hys, Array.toArray_toList] using this
  have hraw : enc = .raw → (List.range s.xs.size).map (fun i =>
        (o.read (U ++ s.name.toList ++ X ++ Y ++ rowBytes o enc s.rows.toList).toByteArray
          (U.length + s.name.size + s.xs.size * 8 + s.xs.size * 8 + 4 * i) 4 : Int)) =
        s.rows.toList := by
    rintro rfl
    have := read_rowBytes_raw o (U ++ s.name.toList ++ X ++ Y) [] s.rows.toList
      (firstBadRow_eq_none_bounds hbad)
    rwa [hpre, List.append_nil, @Array.length_toList _ s.rows, hrows] at this
  have hdelta : enc = .delta →
      readDeltas (U ++ s.name.toList ++ X ++ Y ++ rowBytes o enc s.rows.toList).toByteArray
        (U.length + s.name.size + s.xs.size * 8 + s.xs.size * 8) 0 s.xs.size =
        .ok (s.rows.toList, U.length + s.name.size + s.xs.size * 8 + s.xs.size * 8 +
          (rowBytes o enc s.rows.toList).length) := by
    rintro rfl
    have := readDeltas_rowBytes o (U ++ s.name.toList ++ X ++ Y) hbad
    rwa [hpre, @Array.length_toList _ s.rows, hrows] at this
  simp only [List.append_assoc] at hlen hsize hext hxs hys' hraw hdelta ⊢
  generalize (U ++ (s.name.toList ++ (X ++ (Y ++ rowBytes o enc s.rows.toList)))).toByteArray =
    raw at *
  have hrowsAt : RowsAt raw h (U.length + s.name.size + h.count * 8 + h.count * 8)
      s.rows.toList := by
    unfold RowsAt
    rw [he, ho, hc]
    cases enc with
    | raw =>
      have hRlen := length_rowBytes_raw o s.rows.toList
      rw [@Array.length_toList _ s.rows, hrows] at hRlen
      exact ⟨by omega, (hraw rfl).symm⟩
    | delta => rw [hsize]; exact hdelta rfl
  refine parsePayload_eq_ok_iff.mpr ⟨s.name.size, U.length, s.rows.toList, hlen,
    by rw [hsize, hc]; omega, hrowsAt, ?_, hv⟩
  rw [ho, hc, hb, hext, hxs, hys', Array.toArray_toList]

end Decimation
