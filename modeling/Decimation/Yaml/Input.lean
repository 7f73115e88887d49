/-!
# The characters of a stream, as the reader takes them

A stream is UTF-8 text, or UTF-16 in either byte order when it starts with the byte-order mark
`FF FE` (little end first) or `FE FF` (big end first); a UTF-8 byte-order mark `EF BB BF` at
its very start is dropped as well.

The reader takes the bytes in blocks of at most 512 and decodes each block as soon as it takes
it, character by character: a character outside the printable set (a control other than tab
and the line breaks, `DEL`, a surrogate, `U+FFFE` or `U+FFFF`) refuses the stream, and so do
bytes that encode no character. A block is taken only when the lexer asks for a character that
no earlier block held, so a bad character far beyond what the reading needed goes unseen. A
character split between two blocks is decoded with the later one, which then starts at that
character; bytes cut short by the end of the stream are found only when the lexer asks for a
character beyond the ones before them.

`Stream.inspected` is the number of characters decoded once the lexer has asked for a given
number, and `Stream.refuses` says whether the reading then fails.
-/

namespace Decimation.Yaml

/-- The reader takes this many bytes at a time. -/
def blockSize : Nat := 512

/-- A character may stand in a stream. -/
def allowed (c : Char) : Bool :=
  let n := c.toNat
  n = 0x09 || n = 0x0A || n = 0x0D || (0x20 ≤ n && n ≤ 0x7E) || n = 0x85 ||
    (0xA0 ≤ n && n ≤ 0xD7FF) || (0xE000 ≤ n && n ≤ 0xFFFD) || (0x10000 ≤ n && n ≤ 0x10FFFF)

/-- The encodings of a stream. -/
inductive Encoding where
  | utf8
  | utf16le
  | utf16be
  deriving DecidableEq, Repr

/-- What the reader makes of the bytes at the front of what is left. -/
inductive Decoded where
  /-- a character and the bytes it takes -/
  | char (c : Char) (width : Nat)
  /-- bytes that encode no character, found once this many bytes are at hand -/
  | bad (width : Nat)
  /-- the start of a character cut short by the end of the stream -/
  | cut
  deriving Repr

/-- The UTF-8 character at the front of `bs`: the first byte gives the length, the others
must be continuation bytes, and the code point must need that length and be no surrogate
and at most `U+10FFFF`. -/
def decodeUtf8 : List UInt8 → Decoded
  | [] => .cut
  | b0 :: rest =>
    let width :=
      if b0 &&& 0x80 = 0 then 1 else if b0 &&& 0xE0 = 0xC0 then 2
      else if b0 &&& 0xF0 = 0xE0 then 3 else if b0 &&& 0xF8 = 0xF0 then 4 else 0
    let tail := rest.take (width - 1)
    if width = 0 then .bad 1
    else if tail.length + 1 < width then .cut
    else
      let lead := (b0 &&& (if width = 1 then 0x7F else if width = 2 then 0x1F
        else if width = 3 then 0x0F else 0x07)).toNat
      let value := tail.foldl (fun v b => v * 64 + (b &&& 0x3F).toNat) lead
      if tail.any (fun b => b &&& 0xC0 ≠ 0x80) then .bad width
      else if (width = 2 ∧ value < 0x80) ∨ (width = 3 ∧ value < 0x800) ∨
          (width = 4 ∧ value < 0x10000) then .bad width
      else if (0xD800 ≤ value ∧ value ≤ 0xDFFF) ∨ 0x10FFFF < value then .bad width
      else .char (Char.ofNat value) width

/-- The 16-bit unit of two bytes in the given order. -/
def unit16 (bigEnd : Bool) (a b : UInt8) : Nat :=
  if bigEnd then a.toNat * 256 + b.toNat else b.toNat * 256 + a.toNat

/-- The UTF-16 character at the front of `bs`: a unit outside the surrogates, or a high
surrogate followed by a low one; a low surrogate first, or a high one followed by anything
else, encodes nothing. -/
def decodeUtf16 (bigEnd : Bool) : List UInt8 → Decoded
  | a :: b :: rest =>
    let v := unit16 bigEnd a b
    if v / 1024 = 0xDC00 / 1024 then .bad 2
    else if v / 1024 = 0xD800 / 1024 then
      match rest with
      | c :: d :: _ =>
        let w := unit16 bigEnd c d
        if w / 1024 ≠ 0xDC00 / 1024 then .bad 4
        else .char (Char.ofNat (0x10000 + (v % 1024) * 1024 + w % 1024)) 4
      | _ => .cut
    else .char (Char.ofNat v) 2
  | _ => .cut

/-- The character at the front of `bs` in an encoding. -/
def Encoding.decode : Encoding → List UInt8 → Decoded
  | .utf8 => decodeUtf8
  | .utf16le => decodeUtf16 false
  | .utf16be => decodeUtf16 true

/-- The encoding a stream's first bytes announce, and how many bytes the mark takes. -/
def detectEncoding : List UInt8 → Encoding × Nat
  | 0xFF :: 0xFE :: _ => (.utf16le, 2)
  | 0xFE :: 0xFF :: _ => (.utf16be, 2)
  | 0xEF :: 0xBB :: 0xBF :: _ => (.utf8, 3)
  | _ => (.utf8, 0)

/-- Where the decoding of a stream stops short of its end: at bytes that encode no character,
found once the bytes up to the given offset are at hand, or at a character cut short by the
end of the stream. -/
inductive Fault where
  | bad (foundAt : Nat)
  | cut
  deriving DecidableEq, Repr

/-- A stream: the characters decoded before any fault, the byte offset where each of them ends
(counting the mark), the bytes of the mark, the size in bytes, and the fault, if any. -/
structure Stream where
  chars : Array Char
  ends : Array Nat
  markBytes : Nat
  size : Nat
  fault : Option Fault

/-- Decodes the bytes `rest`, which start at offset `pos`, after `chars` ending at `ends`;
at most `fuel` characters. -/
def decodeFrom (enc : Encoding) :
    Nat → List UInt8 → Nat → Array Char → Array Nat → Array Char × Array Nat × Option Fault
  | 0, _, _, cs, es => (cs, es, none)
  | _ + 1, [], _, cs, es => (cs, es, none)
  | fuel + 1, rest, pos, cs, es =>
    match enc.decode rest with
    | .char c w => decodeFrom enc fuel (rest.drop w) (pos + w) (cs.push c) (es.push (pos + w))
    | .bad w => (cs, es, some (.bad (pos + w)))
    | .cut => (cs, es, some .cut)

/-- The stream of a byte string. -/
def Stream.ofBytes (bs : List UInt8) : Stream :=
  let (enc, mark) := detectEncoding bs
  let (cs, es, fault) := decodeFrom enc (bs.length + 1) (bs.drop mark) mark #[] #[]
  ⟨cs, es, mark, bs.length, fault⟩

/-- The stream of a text. -/
def Stream.ofString (s : String) : Stream := Stream.ofBytes s.toUTF8.toList

namespace Stream

/-- The byte offsets where the decoded characters end, and then where bad bytes are found. -/
def itemEnds (s : Stream) : List Nat :=
  s.ends.toList ++ match s.fault with
    | some (.bad e) => [e]
    | _ => []

/-- The number of items (characters, then bad bytes) found by byte `b`. -/
def charsWithin (s : Stream) (b : Nat) : Nat := (s.itemEnds.takeWhile (· ≤ b)).length

/-- The byte offset after the first `k` characters. -/
def boundary (s : Stream) (k : Nat) : Nat := if k = 0 then s.markBytes else s.ends.getD (k - 1) s.size

/-- Takes blocks, from `read` bytes taken, until `demand` characters are decoded or the
bytes run out; the characters decoded then. -/
def inspectFrom (s : Stream) (demand : Nat) : Nat → Nat → Nat
  | 0, read => s.charsWithin read
  | fuel + 1, read =>
    let decoded := s.charsWithin read
    if demand ≤ decoded ∨ s.size ≤ read then decoded
    else s.inspectFrom demand fuel (min (s.boundary decoded + blockSize) s.size)

/-- The characters decoded once `demand` of them have been asked for: the first block is
always taken. -/
def inspected (s : Stream) (demand : Nat) : Nat :=
  s.inspectFrom demand (s.size + 1) (min blockSize s.size)

/-- The reading fails once `demand` characters have been asked for: a character the reader
decodes is not allowed, or it meets bytes that encode none, in a block it takes or because
the lexer asked for a character beyond them. -/
def refuses (s : Stream) (demand : Nat) : Bool :=
  let seen := s.inspected demand
  (s.chars.toList.take seen).any (fun c => !allowed c) ||
    (s.fault.isSome && (s.chars.size < seen || s.chars.size < demand))

end Stream

end Decimation.Yaml
