import Decimation.Text.Utf8
/-!
# Blank characters

The blank characters are those with the Unicode `White_Space` property: the ASCII controls
from tab to carriage return, the space, next line (U+0085), no-break space (U+00A0), the Ogham
space mark, the spaces U+2000 to U+200A, the line and paragraph separators, the narrow no-break
space, the medium mathematical space and the ideographic space. The zero-width space U+200B is
not blank.

`trimBlank` removes blank characters from both ends of a text, and `trimBlankBytes` from both
ends of a string of bytes, where bytes that encode no character are not blank.
-/

namespace Decimation.Text

/-- A character with the Unicode `White_Space` property. -/
def isBlank (c : Char) : Bool :=
  let n := c.toNat
  (0x09 ≤ n && n ≤ 0x0D) || n == 0x20 || n == 0x85 || n == 0xA0 || n == 0x1680 ||
    (0x2000 ≤ n && n ≤ 0x200A) || n == 0x2028 || n == 0x2029 || n == 0x202F ||
    n == 0x205F || n == 0x3000

/-- The characters left after dropping blank characters from both ends. -/
def trimBlankList (cs : List Char) : List Char :=
  ((cs.dropWhile isBlank).reverse.dropWhile isBlank).reverse

/-- A text without blank characters at either end. -/
def trimBlank (s : String) : String :=
  String.ofList (trimBlankList s.toList)

/-- The bytes of the items of a byte string, in order: each code point in UTF-8, each stray
byte as it is. -/
def itemBytes (items : List Utf8Item) : List UInt8 :=
  items.flatMap fun
    | .char c => (String.singleton (Char.ofNat c)).toUTF8.toList
    | .stray b => [b]

/-- An item is a blank character. -/
def Utf8Item.isBlank : Utf8Item → Bool
  | .char c => Text.isBlank (Char.ofNat c)
  | .stray _ => false

/-- A byte string without blank characters at either end. -/
def trimBlankBytes (bs : List UInt8) : List UInt8 :=
  itemBytes (((utf8Items bs).dropWhile Utf8Item.isBlank).reverse.dropWhile Utf8Item.isBlank).reverse

theorem isBlank_of_isWhitespace {c : Char} (h : c.isWhitespace = true) : isBlank c = true := by
  simp only [Char.isWhitespace, Bool.or_eq_true, decide_eq_true_eq] at h
  simp only [isBlank, Bool.or_eq_true, Bool.and_eq_true, beq_iff_eq, decide_eq_true_eq]
  rcases h with ((h | h) | h) | h <;> rw [h] <;> decide

end Decimation.Text
