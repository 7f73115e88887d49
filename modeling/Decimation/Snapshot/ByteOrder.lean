import Decimation.Codec.Copy
/-!
# Byte order of fixed-width numbers

A fixed-width number is stored in `width` bytes, least significant first (little-endian) or
most significant first (big-endian). Writing keeps the number modulo `256 ^ width`; reading
takes the bytes at a position (`window`) and the number they hold in the order (`value`).
A reader that knows the bytes lie inside the data reads them as they stand (`readIn`, which
takes the bound as a proof); it reads what `read` does (`readIn_eq_read`).

The two are inverse: `value_bytes` (writing then reading keeps the number modulo
`256 ^ width`) and `bytes_value` (reading then writing gives the bytes back).
-/

namespace Decimation

/-- The order in which the bytes of a fixed-width number are stored. -/
inductive ByteOrder where
  | little
  | big
  deriving DecidableEq, Repr

namespace ByteOrder

/-- The `width` low bytes of `x`, least significant first. -/
def littleBytes (width x : Nat) : List UInt8 :=
  (List.range width).map fun k => (x / Nat.pow 256 k % 256).toUInt8

/-- The `width` low bytes of `x` in this order. -/
def bytes (o : ByteOrder) (width x : Nat) : List UInt8 :=
  match o with
  | little => littleBytes width x
  | big => (littleBytes width x).reverse

/-- The number held by bytes stored least significant first. -/
def littleValue (bs : List UInt8) : Nat :=
  bs.foldr (fun b acc => b.toNat + 256 * acc) 0

/-- The number held by the bytes `bs` in this order. -/
def value (o : ByteOrder) (bs : List UInt8) : Nat :=
  match o with
  | little => littleValue bs
  | big => littleValue bs.reverse

/-- The `width` bytes of `d` from `pos` on; bytes past the end count as zero. -/
def window (d : ByteArray) (pos width : Nat) : List UInt8 :=
  (List.range width).map fun k => Codec.byteAt d (pos + k)

/-- The number held by the `width` bytes at `pos`; bytes past the end count as zero. -/
def read (o : ByteOrder) (d : ByteArray) (pos width : Nat) : Nat :=
  o.value (window d pos width)

/-- The number held by the `width` bytes at `pos`, which lie inside `d`. -/
def readIn (o : ByteOrder) (d : ByteArray) (pos width : Nat) (h : pos + width ≤ d.size) : Nat :=
  o.value ((List.finRange width).map fun k => d[pos + k.val])

@[simp]
theorem length_bytes (o : ByteOrder) (width x : Nat) : (o.bytes width x).length = width := by
  cases o <;> simp [bytes, littleBytes]

/-- The low bytes of `x`: its lowest byte, then the low bytes of `x / 256`. -/
theorem littleBytes_succ (w x : Nat) :
    littleBytes (w + 1) x = (x % 256).toUInt8 :: littleBytes w (x / 256) := by
  simp only [littleBytes, List.range_succ_eq_map, List.map_cons, List.map_map]
  simp [Function.comp_def, Nat.pow_succ', Nat.div_div_eq_div_mul]

/-- Reading back the `w` low bytes of `x` gives `x` modulo `256 ^ w`. -/
theorem littleValue_littleBytes (w x : Nat) :
    littleValue (littleBytes w x) = x % Nat.pow 256 w := by
  induction w generalizing x with
  | zero => simp [littleBytes, littleValue, Nat.mod_one]
  | succ w ih =>
    rw [littleBytes_succ]
    simp only [littleValue, List.foldr_cons] at ih ⊢
    rw [ih]
    simp only [Nat.pow_eq]
    rw [Nat.pow_succ', Nat.mod_mul]
    simp

/-- Writing the number some bytes hold, in as many bytes, gives those bytes. -/
theorem littleBytes_littleValue (bs : List UInt8) :
    littleBytes bs.length (littleValue bs) = bs := by
  induction bs with
  | nil => rfl
  | cons b bs ih =>
    have hb : b.toNat < 256 := b.toNat_lt
    rw [List.length_cons, littleBytes_succ]
    simp only [littleValue, List.foldr_cons] at ih ⊢
    have hmod : (b.toNat + 256 * littleValue bs) % 256 = b.toNat := by omega
    have hdiv : (b.toNat + 256 * littleValue bs) / 256 = littleValue bs := by omega
    simp only [littleValue] at hmod hdiv
    rw [hmod, hdiv, ih]
    simp

theorem littleValue_lt (bs : List UInt8) : littleValue bs < Nat.pow 256 bs.length := by
  induction bs with
  | nil => simp [littleValue]
  | cons b bs ih =>
    have hb : b.toNat < 256 := b.toNat_lt
    simp only [littleValue, List.foldr_cons, List.length_cons, Nat.pow_eq, Nat.pow_succ'] at ih ⊢
    omega

/-- Writing then reading keeps a number modulo `256 ^ width`. -/
theorem value_bytes (o : ByteOrder) (w x : Nat) :
    o.value (o.bytes w x) = x % Nat.pow 256 w := by
  cases o <;> simp [value, bytes, littleValue_littleBytes]

/-- Reading then writing, in as many bytes, gives the bytes back. -/
theorem bytes_value (o : ByteOrder) (bs : List UInt8) : o.bytes bs.length (o.value bs) = bs := by
  cases o with
  | little => exact littleBytes_littleValue bs
  | big =>
    simp only [bytes, value]
    rw [← List.length_reverse, littleBytes_littleValue, List.reverse_reverse]

/-- `width` bytes hold a number below `256 ^ width`. -/
theorem value_lt (o : ByteOrder) (bs : List UInt8) : o.value bs < Nat.pow 256 bs.length := by
  cases o with
  | little => exact littleValue_lt bs
  | big => simpa [value] using littleValue_lt bs.reverse

@[simp]
theorem length_window (d : ByteArray) (pos w : Nat) : (window d pos w).length = w := by
  simp [window]

/-- A window is the window of its first `a` bytes followed by the window of the rest. -/
theorem window_add (d : ByteArray) (pos a b : Nat) :
    window d pos (a + b) = window d pos a ++ window d (pos + a) b := by
  simp [window, List.range_add, Nat.add_assoc]

/-- A window inside the data is a slice of it. -/
theorem window_eq_take_drop (d : ByteArray) (pos w : Nat) (h : pos + w ≤ d.size) :
    window d pos w = (d.data.toList.drop pos).take w := by
  apply List.ext_getElem
  · simp; omega
  · intro k hk _
    simp only [length_window] at hk
    simp [window, Codec.byteAt, show pos + k < d.size by omega]
    rfl

theorem window_toByteArray (bs : List UInt8) (pos w : Nat) (h : pos + w ≤ bs.length) :
    window bs.toByteArray pos w = (bs.drop pos).take w := by
  rw [window_eq_take_drop _ _ _ (by simpa using h)]
  simp

/-- The window over the middle part of a list is that part. -/
theorem window_append_mid (pre mid post : List UInt8) :
    window (pre ++ mid ++ post).toByteArray pre.length mid.length = mid := by
  rw [window_toByteArray _ _ _ (by simp only [List.length_append]; omega)]
  simp

theorem window_of_split (bs pre mid post : List UInt8) {pos w : Nat}
    (hbs : bs = pre ++ mid ++ post) (hp : pre.length = pos) (hm : mid.length = w) :
    window bs.toByteArray pos w = mid := by
  subst hbs hp hm
  exact window_append_mid pre mid post

/-- Writing the number read from a window gives the window. -/
theorem bytes_read (o : ByteOrder) (d : ByteArray) (pos w : Nat) :
    o.bytes w (o.read d pos w) = window d pos w := by
  have := bytes_value o (window d pos w)
  rwa [length_window] at this

/-- The number read from `width` bytes is below `256 ^ width`. -/
theorem read_lt (o : ByteOrder) (d : ByteArray) (pos w : Nat) :
    o.read d pos w < Nat.pow 256 w := by
  have := value_lt o (window d pos w)
  rwa [length_window] at this

/-- A number read from eight bytes fits a 64-bit word. -/
theorem toNat_read_toUInt64 (o : ByteOrder) (d : ByteArray) (pos : Nat) :
    (o.read d pos 8).toUInt64.toNat = o.read d pos 8 := by
  have := read_lt o d pos 8
  show (UInt64.ofNat _).toNat = _
  rw [UInt64.toNat_ofNat']
  exact Nat.mod_eq_of_lt (Nat.lt_of_lt_of_eq this rfl)

@[simp]
theorem readIn_eq_read (o : ByteOrder) (d : ByteArray) (pos width : Nat)
    (h : pos + width ≤ d.size) : o.readIn d pos width h = o.read d pos width := by
  rw [readIn, read, window]
  congr 1
  apply List.ext_getElem (by simp)
  intro i h₁ h₂
  have hi : i < width := by simpa using h₁
  simp only [List.getElem_map, List.getElem_finRange, List.getElem_range,
    Codec.byteAt_of_lt (show pos + i < d.size by omega)]
  rfl

end ByteOrder

end Decimation
