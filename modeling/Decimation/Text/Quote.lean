import Decimation.Text.Printable
import Decimation.Text.Utf8
/-!
# Quoted text

A quoted text is written between double quotes. Printable characters stand for themselves,
except the double quote and the backslash, which get a backslash in front. The controls
bell, backspace, form feed, newline, carriage return, tab and vertical tab are written `\a`,
`\b`, `\f`, `\n`, `\r`, `\t` and `\v`; other controls and DEL as `\x` and two hexadecimal
digits; other characters below `U+10000` as `\u` and four digits, the rest as `\U` and eight.
A stray byte (see `Decimation.Text.Utf8`) is written `\x` and its two digits. All hexadecimal
digits are lowercase.
-/

namespace Decimation.Text

/-- `n` in lowercase hexadecimal, padded with zeros to `width` digits. -/
def hexPadded (width n : Nat) : String :=
  let ds := Nat.toDigits 16 n
  String.ofList (List.replicate (width - ds.length) '0' ++ ds)

/-- The written form of one code point inside a quoted text. -/
def escapeCode (c : Nat) : String :=
  if c = 0x22 then "\\\""
  else if c = 0x5C then "\\\\"
  else if isPrintable c then String.singleton (Char.ofNat c)
  else if c = 7 then "\\a"
  else if c = 8 then "\\b"
  else if c = 0xC then "\\f"
  else if c = 0xA then "\\n"
  else if c = 0xD then "\\r"
  else if c = 9 then "\\t"
  else if c = 0xB then "\\v"
  else if c < 0x20 || c = 0x7F then "\\x" ++ hexPadded 2 c
  else if c < 0x10000 then "\\u" ++ hexPadded 4 c
  else "\\U" ++ hexPadded 8 c

/-- The written form of one item inside a quoted text. -/
def escapeItem : Utf8Item → String
  | .char c => escapeCode c
  | .stray b => "\\x" ++ hexPadded 2 b.toNat

/-- A byte string as a quoted text. -/
def quoteBytes (bs : List UInt8) : String :=
  "\"" ++ String.join ((utf8Items bs).map escapeItem) ++ "\""

/-- A text as a quoted text. -/
def quote (s : String) : String := quoteBytes s.toUTF8.toList

/-- A code point as a quoted character: between single quotes, where the single quote and
the backslash get a backslash in front and the double quote stands for itself. -/
def quoteRune (c : Nat) : String :=
  "'" ++ (if c = 0x27 then "\\'" else if c = 0x22 then "\"" else escapeCode c) ++ "'"

end Decimation.Text
