import Decimation.Codec.Zstd.Fse
/-!
# Huffman-coded literals

A Huffman table is described by a weight per symbol (the last weight left implicit): a symbol
of weight `w > 0` gets a code of `log + 1 - w` bits, where `2^log` is the sum of `2^(w-1)`
over all symbols once the implicit weight is added (the implicit weight makes the sum a power
of two). Weights come either as four-bit fields or FSE-compressed, decoded by two states that
take turns over one backward stream.

The decoding table has `2^log` entries: peeking `log` bits of a stream finds the symbol and
how many of those bits its code takes. Entries are laid out by weight, lightest first, and
within a weight by symbol.
-/

namespace Decimation.Codec.Zstd

/-- A Huffman decoding table: `2^log` entries of a symbol and its code length. -/
structure HuffTable where
  log : Nat
  entries : Array (Nat × Nat)

/-- The symbols FSE-coded weights decode to, with two alternating states, at most `fuel`
pairs. The stream ends when a state needs bits and none are left. -/
def weightSymbols (t : FseTable) : Nat → Backward → Nat → Nat → Array Nat →
    Except ZstdError (Array Nat × Backward)
  | 0, _, _, _, _ => .error (.badHuffman "too many weights")
  | fuel + 1, r, s1, s2, out =>
    let c1 := t.cell s1
    if r.left ≤ 0 && c1.bits > 0 then .ok (out ++ #[c1.symbol, (t.cell s2).symbol], r)
    else
      let (b1, r) := r.read c1.bits
      let s1 := c1.base + b1
      let out := out.push c1.symbol
      let c2 := t.cell s2
      if r.left ≤ 0 && c2.bits > 0 then .ok (out ++ #[c2.symbol, (t.cell s1).symbol], r)
      else
        let (b2, r) := r.read c2.bits
        let out := out.push c2.symbol
        if out.size ≥ 255 then .error (.badHuffman "too many weights")
        else weightSymbols t fuel r s1 (c2.base + b2) out

/-- Weights given FSE-compressed in the bytes `[pos, stop)`. -/
def fseWeights (data : ByteArray) (pos stop : Nat) : Except ZstdError (Array Nat) := do
  let (log, counts, used) ← readDistribution data pos stop 255 15
  let table ← buildTable counts log true
  let r ← Backward.init data (pos + used) stop
  let (s1, r) := r.read log
  let (s2, r) := r.read log
  let (ws, r) ← weightSymbols table 256 r s1 s2 #[]
  if r.overread then throw (.badHuffman "weight stream overread")
  if ws.size > 255 then throw (.badHuffman "too many weights")
  return ws

/-- Weights given as four-bit fields, `n` of them, in the bytes from `pos`. -/
def directWeights (data : ByteArray) (pos n : Nat) : Array Nat :=
  (Array.range n).map fun k =>
    let b := (byteAt data (pos + k / 2)).toNat
    if k % 2 = 0 then b / 16 else b % 16

/-- The table of a list of weights to which the implicit last weight is still to be added. -/
def tableOfWeights (ws : Array Nat) : Except ZstdError HuffTable := do
  if ws.any (· > 11) then throw (.badHuffman "weight too large")
  let total := ws.foldl (fun acc w => acc + Nat.pow 2 w / 2) 0
  if total = 0 then throw (.badHuffman "all weights zero")
  let log := Nat.log2 total + 1
  if log > 11 then throw (.badHuffman "table too deep")
  let rest := Nat.pow 2 log - total
  if Nat.pow 2 (Nat.log2 rest) != rest then throw (.badHuffman "weights do not complete a power of two")
  let ws := ws.push (Nat.log2 rest + 1)
  if (ws.filter (· = 1)).size < 2 || (ws.filter (· = 1)).size % 2 = 1 then
    throw (.badHuffman "odd number of shortest codes")
  -- the first entry of each weight: all lighter weights come before it
  let starts := (List.range (log + 2)).map fun w =>
    (ws.filter (fun v => 0 < v && v < w)).foldl (fun acc v => acc + Nat.pow 2 (v - 1)) 0
  let mut entries := Array.replicate (Nat.pow 2 log) (0, 0)
  let mut next := starts.toArray
  for s in [0:ws.size] do
    let w := ws.getD s 0
    if w > 0 then
      let first := next.getD w 0
      for k in [0:Nat.pow 2 (w - 1)] do
        entries := entries.setIfInBounds (first + k) (s, log + 1 - w)
      next := next.setIfInBounds w (first + Nat.pow 2 (w - 1))
  return ⟨log, entries⟩

/-- Reads a table description at `pos` (before `stop`); the table and the position after it. -/
def readHuffTable (data : ByteArray) (pos stop : Nat) : Except ZstdError (HuffTable × Nat) := do
  if stop ≤ pos + 1 then throw (.badHuffman "input too small for table")
  let h := (byteAt data pos).toNat
  if h ≥ 128 then
    let n := h - 127
    let bytes := (n + 1) / 2
    if bytes > stop - (pos + 1) then throw (.badHuffman "input too small for table")
    let t ← tableOfWeights (directWeights data (pos + 1) n)
    return (t, pos + 1 + bytes)
  else
    if h > stop - (pos + 1) then throw (.badHuffman "input too small for table")
    let ws ← fseWeights data (pos + 1) (pos + 1 + h)
    let t ← tableOfWeights ws
    return (t, pos + 1 + h)

/-- Decodes the stream `[base, stop)` until its bits are used up; more than `cap` symbols, or
a code running past the stream's bottom, is refused. -/
def decodeStream (t : HuffTable) (data : ByteArray) (base stop cap : Nat) :
    Except ZstdError ByteArray := do
  let r ← Backward.init data base stop
  let (out, r) ← go r ByteArray.empty (cap + 1)
  if r.overread then throw (.badHuffman "stream overread")
  return out
where
  go (r : Backward) (out : ByteArray) : Nat → Except ZstdError (ByteArray × Backward)
    | 0 => .error (.badHuffman "stream too long")
    | fuel + 1 =>
      if r.left ≤ 0 then .ok (out, r)
      else if out.size ≥ cap then .error (.badHuffman "stream too long")
      else
        let (sym, bits) := t.entries.getD (r.peek t.log) (0, 0)
        go ({ r with left := r.left - bits }) (out.push sym.toUInt8) fuel

/-- Decodes `size` literals coded in one stream over `[pos, stop)`. -/
def decodeOne (t : HuffTable) (data : ByteArray) (pos stop size : Nat) :
    Except ZstdError ByteArray := do
  let out ← decodeStream t data pos stop size
  if out.size != size then throw (.badHuffman "wrong number of literals")
  return out

/-- Decodes `size` literals coded in four streams over `[pos, stop)`: a jump table of three
two-byte stream sizes, then the streams; the first three yield `⌈size/4⌉` literals each. -/
def decodeFour (t : HuffTable) (data : ByteArray) (pos stop size : Nat) :
    Except ZstdError ByteArray := do
  if stop < pos + 10 then throw (.badHuffman "input too small")
  let every := (size + 3) / 4
  let mut start := pos + 6
  let mut out := ByteArray.empty
  for i in [0:4] do
    let len := if i < 3 then leAt data (pos + 2 * i) 2 else stop - start
    if i < 3 && start + len ≥ stop then throw (.badHuffman "truncated jump table")
    let want := min size (every * (i + 1)) - min size (every * i)
    let part ← decodeStream t data start (start + len) want
    if part.size != want then throw (.badHuffman "short stream")
    out := out ++ part
    start := start + len
  return out

end Decimation.Codec.Zstd
