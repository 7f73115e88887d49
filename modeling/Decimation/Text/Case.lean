/-!
# Lower case for comparing with ASCII words

Texts are lowered here only to be compared with ASCII words: names of algorithms, compression
kinds, index encodings, log levels and commands, and the truth values. Under the simple case
mapping of the Unicode character database, the ASCII capitals lower to ASCII letters, and so do
two characters beyond ASCII: the capital I with dot above (U+0130) lowers to `i` and the Kelvin
sign (U+212A) to `k`. A few other capitals lower to a letter that takes a different number of
bytes in UTF-8, which matters where lowered texts are compared byte by byte.

`lowerChar` maps exactly these characters to their lowercase letters and keeps every other
character. Any other character lowers, if at all, to a letter that is not ASCII and has the
same length in UTF-8, so keeping it changes no comparison with an ASCII word, whether the
comparison is of characters or of bytes.
-/

namespace Decimation.Text

/-- The capitals beyond ASCII whose lowercase letter is ASCII or has another length in UTF-8,
with that letter. -/
def lowerExceptions : List (Nat × Nat) :=
  [(0x130, 0x69), (0x23A, 0x2C65), (0x23E, 0x2C66), (0x1E9E, 0xDF), (0x2126, 0x3C9),
    (0x212A, 0x6B), (0x212B, 0xE5), (0x2C62, 0x26B), (0x2C64, 0x27D), (0x2C6D, 0x251),
    (0x2C6E, 0x271), (0x2C6F, 0x250), (0x2C70, 0x252), (0x2C7E, 0x23F), (0x2C7F, 0x240),
    (0xA78D, 0x265), (0xA7AA, 0x266), (0xA7AB, 0x25C), (0xA7AC, 0x261), (0xA7AD, 0x26C),
    (0xA7AE, 0x26A), (0xA7B0, 0x29E), (0xA7B1, 0x287), (0xA7B2, 0x29D), (0xA7C5, 0x282),
    (0xA7CB, 0x264), (0xA7DC, 0x19B)]

/-- A character lowered as far as comparisons with ASCII words can tell; see the module
header. -/
def lowerChar (c : Char) : Char :=
  if 'A' ≤ c ∧ c ≤ 'Z' then Char.ofNat (c.toNat + 32)
  else match lowerExceptions.lookup c.toNat with
    | some l => Char.ofNat l
    | none => c

/-- A text lowered character by character with `lowerChar`. -/
def lower (s : String) : String := String.ofList (s.toList.map lowerChar)

end Decimation.Text
