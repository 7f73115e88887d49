import Decimation.Bytes.Buffer
/-!
# What a byte buffer holds

After any sequence of calls, a buffer holds the data written since it was last reset, or since
it was made (`bytes_perform_of_no_reset`, `bytes_perform_of_fresh`), whatever the runtime does
with a write that overflows the room. When the runtime moves such a write to an array that holds
it, as the language promises (`AppendGrowth`), the capacity stays known and holds the bytes
after every call (`fits_perform`), so a request for room for `n` more bytes always leaves at
least `n` free. `perform_bytes_and_grow_room` puts the two together for every sequence of
grows, writes and resets.
-/

namespace Decimation.ByteBuffer

/-! ## The bytes -/

/-- The bytes a call appends: a write's data, nothing for the others. -/
def Call.data : Call → ByteArray
  | .write data => data
  | _ => ByteArray.empty

/-- The data the calls write, concatenated in order. -/
def written : List Call → ByteArray
  | [] => ByteArray.empty
  | c :: calls => c.data ++ written calls

/-- A call other than a reset appends the data it writes. -/
theorem Call.bytes_perform {c : Call} (hc : c ≠ .reset) (enlarge : Nat → Nat → Option Nat)
    (b : ByteBuffer) : (c.perform enlarge b).bytes = b.bytes ++ c.data := by
  cases c with
  | grow n => simp [Call.perform, Call.data, ByteArray.append_empty]
  | write data => rfl
  | reset => exact absurd rfl hc

/-- Calls with no reset among them append what they write. -/
theorem bytes_perform_of_no_reset (enlarge : Nat → Nat → Option Nat) {calls : List Call}
    (hcalls : ∀ c ∈ calls, c ≠ .reset) (b : ByteBuffer) :
    (perform enlarge b calls).bytes = b.bytes ++ written calls := by
  -- induction on the calls, from any buffer, since each call starts where the last one ended
  induction calls generalizing b with
  | nil => simp [written, ByteArray.append_empty]
  | cons c calls ih =>
    have hc : c ≠ .reset := hcalls c List.mem_cons_self
    have hrest : ∀ c' ∈ calls, c' ≠ .reset := fun c' h => hcalls c' (List.mem_cons_of_mem c h)
    rw [perform_cons, ih hrest, Call.bytes_perform hc, written, ByteArray.append_assoc]

/-- A buffer just made, or just reset, holds no bytes. -/
theorem bytes_perform_of_fresh (enlarge : Nat → Nat → Option Nat) (size : Nat)
    {pre : List Call} (hpre : pre = [] ∨ pre.getLast? = some .reset) :
    (perform enlarge (withCapacity size) pre).bytes = ByteArray.empty := by
  rcases hpre with rfl | hlast
  · rfl
  · obtain ⟨before, rfl⟩ := List.getLast?_eq_some_iff.mp hlast
    rw [perform_append]
    rfl

/-! ## The room -/

/-- The capacity is known and holds the bytes. -/
def Fits (b : ByteBuffer) : Prop := ∃ c, b.capacity = some c ∧ b.bytes.size ≤ c

theorem fits_withCapacity (size : Nat) : (withCapacity size).Fits :=
  ⟨size, rfl, Nat.zero_le size⟩

/-- Every call keeps the bytes within a known capacity, when the runtime moves an overflowing
write to an array that holds it. -/
theorem Call.fits_perform (r : AppendGrowth) (c : Call) {b : ByteBuffer} (hb : b.Fits) :
    (c.perform r.enlarge b).Fits := by
  obtain ⟨cap, hcap, hsize⟩ := hb
  cases c with
  | grow n =>
    obtain ⟨cap', hcap', hle, -⟩ := grow_room hcap n
    exact ⟨cap', hcap', by simp only [Call.perform, bytes_grow]; omega⟩
  | write data =>
    -- the bytes stay where they are when they fit, else the runtime's new array holds them
    by_cases hfit : (b.bytes ++ data).size ≤ cap
    · exact ⟨cap, by simp only [Call.perform, capacity_appendWith _ hcap, if_pos hfit], hfit⟩
    · refine ⟨r.capacity cap (b.bytes ++ data).size, ?_,
        r.fits cap (b.bytes ++ data).size (Nat.lt_of_not_le hfit)⟩
      simp only [Call.perform, capacity_appendWith _ hcap, if_neg hfit, AppendGrowth.enlarge]
  | reset => exact ⟨cap, hcap, Nat.zero_le cap⟩

theorem fits_perform (r : AppendGrowth) (calls : List Call) {b : ByteBuffer} (hb : b.Fits) :
    (perform r.enlarge b calls).Fits := by
  induction calls generalizing b with
  | nil => exact hb
  | cons c calls ih => exact ih (c.fits_perform r hb)

/-! ## Every sequence of calls -/

/-- Split a sequence of calls at its last reset (`pre` is empty when there is none): the buffer
holds what the calls after it wrote, its length is theirs, and a request for room for `n` more
bytes then leaves at least `n` free. -/
theorem perform_bytes_and_grow_room (r : AppendGrowth) (size : Nat) (pre post : List Call)
    (hpre : pre = [] ∨ pre.getLast? = some .reset) (hpost : ∀ c ∈ post, c ≠ .reset) :
    let b := perform r.enlarge (withCapacity size) (pre ++ post)
    b.bytes = written post ∧ b.len = (written post).size ∧
      ∀ n : Int, ∃ c, (b.grow n).capacity = some c ∧ n ≤ (c : Int) - (b.grow n).len := by
  intro b
  have hbytes : b.bytes = written post := by
    rw [show b = perform r.enlarge (perform r.enlarge (withCapacity size) pre) post from
        perform_append _ _ _ _, bytes_perform_of_no_reset _ hpost, bytes_perform_of_fresh _ _ hpre,
      ByteArray.empty_append]
  refine ⟨hbytes, by rw [len, hbytes], fun n => ?_⟩
  obtain ⟨cap, hcap, -⟩ := fits_perform r (pre ++ post) (fits_withCapacity size)
  obtain ⟨c, hc, -, hroom⟩ := grow_room hcap n
  exact ⟨c, hc, by simpa [len] using hroom⟩

/-- Doubling, at least to the length, rounded up to a multiple of eight: how the runtime enlarges
a byte array of up to 32 bytes. -/
def AppendGrowth.doubling : AppendGrowth where
  capacity c len := 8 * ((max (2 * c) len + 7) / 8)
  fits c len _ := by omega

/-- Five bytes overflow an empty buffer (the runtime picks eight), room for ten more gives 16 KiB
of room, and after a reset two bytes are written and room for three asked for. -/
theorem perform_bytes_and_grow_room_afterReset :
    ([Call.write ⟨#[1, 2, 3, 4, 5]⟩, .grow 10, .reset] = [] ∨
        [Call.write ⟨#[1, 2, 3, 4, 5]⟩, .grow 10, .reset].getLast? = some .reset) ∧
      (∀ c ∈ [Call.write ⟨#[7, 8]⟩, .grow 3], c ≠ .reset) ∧
      let b := perform AppendGrowth.doubling.enlarge (withCapacity 0)
        ([.write ⟨#[1, 2, 3, 4, 5]⟩, .grow 10, .reset] ++ [.write ⟨#[7, 8]⟩, .grow 3])
      b.bytes = written [.write ⟨#[7, 8]⟩, .grow 3] ∧
        b.len = (written [.write ⟨#[7, 8]⟩, .grow 3]).size ∧
        ∀ n : Int, ∃ c, (b.grow n).capacity = some c ∧ n ≤ (c : Int) - (b.grow n).len :=
  ⟨Or.inr rfl, by simp,
    perform_bytes_and_grow_room AppendGrowth.doubling 0 _ _ (Or.inr rfl) (by simp)⟩

end Decimation.ByteBuffer
