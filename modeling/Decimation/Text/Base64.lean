/-!
# Base64

The standard alphabet `A–Z a–z 0–9 + /` with `=` padding (RFC 4648, section 4). Line breaks
(`\r`, `\n`) anywhere in the text are skipped. The text must then be whole groups of four
characters, the last of which may end in `==` or `=`; bits left over in the last group are
dropped.
-/

namespace Decimation.Text

/-- The value of a character of the alphabet. -/
def sextet (c : Char) : Option Nat :=
  if 'A' ≤ c ∧ c ≤ 'Z' then some (c.toNat - 65)
  else if 'a' ≤ c ∧ c ≤ 'z' then some (c.toNat - 71)
  else if '0' ≤ c ∧ c ≤ '9' then some (c.toNat + 4)
  else if c = '+' then some 62
  else if c = '/' then some 63
  else none

/-- The bytes of a group of two to four sextets: one, two or three. -/
def groupBytes (vs : List Nat) : List UInt8 :=
  let v := vs.foldl (fun acc d => acc * 64 + d) 0 * Nat.pow 64 (4 - vs.length)
  let bytes := [v / 65536 % 256, v / 256 % 256, v % 256]
  (bytes.take (vs.length - 1)).map Nat.toUInt8

/-- Decodes groups of four characters. -/
def decodeGroups : List Char → Option (List UInt8)
  | [] => some []
  | [a, b, '=', '='] => do
    return groupBytes [← sextet a, ← sextet b]
  | [a, b, c, '='] => do
    return groupBytes [← sextet a, ← sextet b, ← sextet c]
  | a :: b :: c :: d :: rest => do
    let group := groupBytes [← sextet a, ← sextet b, ← sextet c, ← sextet d]
    return group ++ (← decodeGroups rest)
  | _ => none

/-- The bytes a base64 text stands for, or none when it is not base64. -/
def base64Decode (s : String) : Option (List UInt8) :=
  decodeGroups (s.toList.filter fun c => c ≠ '\r' ∧ c ≠ '\n')

end Decimation.Text
