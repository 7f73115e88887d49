/-!
# Reading UTF-8

A byte string splits into code points, each encoded in one to four bytes, and stray bytes that
begin no valid encoding. An encoding is valid when its length matches its first byte, every
continuation byte lies in `0x80 ..= 0xBF`, it is the shortest encoding of its code point, and
the code point is neither a surrogate nor above `0x10FFFF`. These limits are checked on the
second byte: after `0xE0` it lies in `0xA0 ..= 0xBF`, after `0xED` in `0x80 ..= 0x9F`, after
`0xF0` in `0x90 ..= 0xBF` and after `0xF4` in `0x80 ..= 0x8F`. A byte that begins no valid
encoding is stray, and reading resumes at the next byte.
-/

namespace Decimation.Text

/-- A code point read from a byte string, or a stray byte. -/
inductive Utf8Item where
  | char (c : Nat)
  | stray (b : UInt8)
  deriving DecidableEq, Repr

/-- A continuation byte in `[lo, hi]`. -/
def within (b : UInt8) (lo hi : UInt8) : Bool := lo ≤ b && b ≤ hi

/-- The low six bits of a continuation byte. -/
def low6 (b : UInt8) : Nat := (b &&& 0x3F).toNat

/-- The first item of a nonempty byte string and how many bytes after the first it takes. -/
def firstItem (b0 : UInt8) (rest : List UInt8) : Utf8Item × Nat :=
  if b0 < 0x80 then (.char b0.toNat, 0)
  else if b0 < 0xC2 || b0 > 0xF4 then (.stray b0, 0)
  else
    let lo : UInt8 := if b0 = 0xE0 then 0xA0 else if b0 = 0xF0 then 0x90 else 0x80
    let hi : UInt8 := if b0 = 0xED then 0x9F else if b0 = 0xF4 then 0x8F else 0xBF
    match rest with
    | b1 :: rest1 =>
      if !within b1 lo hi then (.stray b0, 0)
      else if b0 < 0xE0 then (.char ((b0 &&& 0x1F).toNat * 64 + low6 b1), 1)
      else
        match rest1 with
        | b2 :: rest2 =>
          if !within b2 0x80 0xBF then (.stray b0, 0)
          else if b0 < 0xF0 then
            (.char ((b0 &&& 0x0F).toNat * 4096 + low6 b1 * 64 + low6 b2), 2)
          else
            match rest2 with
            | b3 :: _ =>
              if !within b3 0x80 0xBF then (.stray b0, 0)
              else
                (.char ((b0 &&& 0x07).toNat * 262144 + low6 b1 * 4096 + low6 b2 * 64 +
                  low6 b3), 3)
            | [] => (.stray b0, 0)
        | [] => (.stray b0, 0)
    | [] => (.stray b0, 0)

/-- The items of a byte string, in order. -/
def utf8Items : List UInt8 → List Utf8Item
  | [] => []
  | b0 :: rest =>
    let r := firstItem b0 rest
    r.1 :: utf8Items (rest.drop r.2)
termination_by bs => bs.length
decreasing_by
  simp only [List.length_drop, List.length_cons]
  omega

/-- The byte string holds valid UTF-8 only. -/
def isValidUtf8 (bs : List UInt8) : Bool :=
  (utf8Items bs).all fun
    | .char _ => true
    | .stray _ => false

/-- The text of a byte string, each stray byte read as the replacement character `U+FFFD`. -/
def lossyText (bs : List UInt8) : String :=
  String.ofList ((utf8Items bs).map fun
    | .char c => Char.ofNat c
    | .stray _ => Char.ofNat 0xFFFD)

end Decimation.Text
