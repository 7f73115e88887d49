/-!
# Growable byte buffers

A byte buffer holds bytes and reserves room for more. Asking for room for `n` more bytes does
nothing when that much is free; otherwise the room grows by a quarter of the capacity when the
capacity exceeds 64 KiB and by 16 KiB otherwise, and at least by `n`. A write that overflows
the room moves the bytes to a larger array whose capacity the runtime picks: the language fixes
only that it holds them (`AppendGrowth`). `appendWith` takes that pick as a parameter; `write`
records it as unknown, and from then on further requests for room leave the capacity unknown.
A sequence of calls (`Call`) is performed in order by `perform`.
-/

namespace Decimation

/-- Bytes written and the capacity reserved, when known. -/
structure ByteBuffer where
  bytes : ByteArray
  capacity : Option Nat

/-- How the runtime enlarges an array that an append overflows: the capacity of the new array,
from the old capacity and the length it must hold, holds that length. -/
structure AppendGrowth where
  capacity : Nat → Nat → Nat
  fits : ∀ c len, c < len → len ≤ capacity c len

/-- The runtime's pick as a known capacity. -/
def AppendGrowth.enlarge (r : AppendGrowth) (c len : Nat) : Option Nat := some (r.capacity c len)

namespace ByteBuffer

/-- The smallest growth of the room. -/
def minimumGrowth : Nat := 16384

/-- An empty buffer with room for `size` bytes. -/
def withCapacity (size : Nat) : ByteBuffer := ⟨ByteArray.empty, some size⟩

/-- The number of bytes written. -/
def len (b : ByteBuffer) : Nat := b.bytes.size

/-- Makes room for `n` more bytes; see the module header. -/
def grow (b : ByteBuffer) (n : Int) : ByteBuffer :=
  match b.capacity with
  | none => b
  | some cap =>
    if (cap : Int) - b.bytes.size ≥ n then b
    else
      let step := if cap > 4 * minimumGrowth then cap / 4 else minimumGrowth
      let step := max (step : Int) n
      ⟨b.bytes, some (b.bytes.size + step.toNat)⟩

/-- Appends bytes; when they do not fit, the new capacity is `enlarge c len` for the old
capacity `c` and the new length `len`, `none` when it is not known. -/
def appendWith (enlarge : Nat → Nat → Option Nat) (b : ByteBuffer) (data : ByteArray) :
    ByteBuffer :=
  let bytes := b.bytes ++ data
  ⟨bytes, b.capacity.bind fun c => if bytes.size ≤ c then some c else enlarge c bytes.size⟩

/-- Appends bytes; the capacity becomes unknown if they do not fit. -/
def write (b : ByteBuffer) (data : ByteArray) : ByteBuffer :=
  b.appendWith (fun _ _ => none) data

/-- Drops the bytes and keeps the room. -/
def reset (b : ByteBuffer) : ByteBuffer := ⟨ByteArray.empty, b.capacity⟩

@[simp]
theorem bytes_grow (b : ByteBuffer) (n : Int) : (b.grow n).bytes = b.bytes := by
  unfold grow
  split
  · rfl
  · split <;> rfl

@[simp]
theorem bytes_appendWith (enlarge : Nat → Nat → Option Nat) (b : ByteBuffer) (data : ByteArray) :
    (b.appendWith enlarge data).bytes = b.bytes ++ data := rfl

theorem capacity_appendWith (enlarge : Nat → Nat → Option Nat) {b : ByteBuffer} {c : Nat}
    (hc : b.capacity = some c) (data : ByteArray) :
    (b.appendWith enlarge data).capacity =
      if (b.bytes ++ data).size ≤ c then some c else enlarge c (b.bytes ++ data).size := by
  simp only [appendWith, hc, Option.bind_some]

@[simp]
theorem bytes_reset (b : ByteBuffer) : b.reset.bytes = ByteArray.empty := rfl

@[simp]
theorem capacity_reset (b : ByteBuffer) : b.reset.capacity = b.capacity := rfl

@[simp]
theorem size_write (b : ByteBuffer) (data : ByteArray) :
    (b.write data).bytes.size = b.bytes.size + data.size := by
  simp [write]

/-- Room for `n` more bytes, from a known capacity `c`: the capacity stays known, never
shrinks, and leaves at least `n` bytes free. -/
theorem grow_room {b : ByteBuffer} {c : Nat} (hc : b.capacity = some c) (n : Int) :
    ∃ c', (b.grow n).capacity = some c' ∧ c ≤ c' ∧ n ≤ (c' : Int) - b.bytes.size := by
  simp only [grow, hc]
  split
  · exact ⟨c, hc, Nat.le_refl c, by omega⟩
  · exact ⟨_, rfl, by omega, by omega⟩

/-- One call on a buffer. -/
inductive Call where
  | grow (n : Int)
  | write (data : ByteArray)
  | reset

/-- Performs a call, an overflowing write enlarged by `enlarge`. -/
def Call.perform (enlarge : Nat → Nat → Option Nat) : Call → ByteBuffer → ByteBuffer
  | .grow n, b => b.grow n
  | .write data, b => b.appendWith enlarge data
  | .reset, b => b.reset

/-- Performs calls in order. -/
def perform (enlarge : Nat → Nat → Option Nat) (b : ByteBuffer) (calls : List Call) :
    ByteBuffer :=
  calls.foldl (fun b c => c.perform enlarge b) b

@[simp]
theorem perform_nil (enlarge : Nat → Nat → Option Nat) (b : ByteBuffer) :
    perform enlarge b [] = b := rfl

@[simp]
theorem perform_cons (enlarge : Nat → Nat → Option Nat) (b : ByteBuffer) (c : Call)
    (calls : List Call) :
    perform enlarge b (c :: calls) = perform enlarge (c.perform enlarge b) calls :=
  rfl

theorem perform_append (enlarge : Nat → Nat → Option Nat) (b : ByteBuffer) (xs ys : List Call) :
    perform enlarge b (xs ++ ys) = perform enlarge (perform enlarge b xs) ys :=
  List.foldl_append

end ByteBuffer

end Decimation
