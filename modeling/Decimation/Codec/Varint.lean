/-!
# Unsigned variable-length numbers

A number is written seven bits to a byte, least significant group first, with the high bit of
each byte but the last set. Reading accepts at most ten bytes and 64 bits: the tenth byte may
only be `0` or `1`.
-/

namespace Decimation.Codec

/-- The bytes of `n`. -/
def uvarintBytes (n : Nat) : List UInt8 :=
  if h : n < 128 then [n.toUInt8]
  else (n % 128 + 128).toUInt8 :: uvarintBytes (n / 128)
termination_by n
decreasing_by omega

/-- The number at `pos` and the position after it; nothing when the input ends inside it or
it runs past ten bytes or 64 bits. -/
def readUvarint (src : ByteArray) (pos : Nat) : Option (Nat × Nat) :=
  go pos 0 0 10
where
  go (p shift acc : Nat) : Nat → Option (Nat × Nat)
    | 0 => none
    | fuel + 1 =>
      if h : p < src.size then
        let b := src[p].toNat
        if b < 128 then
          if fuel = 0 && b > 1 then none else some (acc + b * Nat.pow 2 shift, p + 1)
        else go (p + 1) (shift + 7) (acc + (b - 128) * Nat.pow 2 shift) fuel
      else none

end Decimation.Codec
