import Decimation.Codec.S2
import Decimation.Codec.Lz4Compress
/-!
# Compressing S2 blocks

The encoder scans the input keeping, for each hash of the next few bytes, the last position
they were seen at. How many bytes are hashed, the size of the table and how fast the scan
skips ahead without matches depend on the input's size:

| input size        | table bits | skip shift | hashed bytes |
|-------------------|-----------:|-----------:|-------------:|
| below 512         | 8          | 4          | 4            |
| below 4 KiB       | 10         | 5          | 4            |
| below 16 KiB      | 12         | 5          | 5            |
| larger            | 14         | 6          | 6            |

At a position `s` the encoder first tries the last copy offset one byte ahead (a repeat),
then the candidates of `s`, `s + 1` and `s + 2`. A match is extended backwards over the pending
literals and forwards as far as the input agrees; a repeat found after the first literal is
written as a repeat element, which does not restate the offset. After a copy the encoder
looks for an immediate further match at its end. Without a match it moves on by
`4 + (s - start of pending literals) >> skip shift`. Matching stops within the last eight
bytes of the input, which then end the block as literals.

The encoder gives up, and the whole input is written as one literal, when the elements would
come within a small margin of `n - n / 32 - 5` bytes. Inputs shorter than ten bytes are
always written as one literal.
-/

namespace Decimation.Codec.S2

/-- How the encoder works on an input of a given size; see the module header. -/
structure Tuning where
  tableBits : Nat
  skipShift : Nat
  hashBytes : Nat
  /-- the most bytes a literal's header can take for inputs of this size -/
  headerRoom : Nat

/-- The tuning for an input of `n` bytes. -/
def tuningFor (n : Nat) : Tuning :=
  if n < 512 then ⟨8, 4, 4, 3⟩
  else if n < 4096 then ⟨10, 5, 4, 3⟩
  else if n < 16384 then ⟨12, 5, 5, 3⟩
  else if n < 4194304 then ⟨14, 6, 6, 4⟩
  else ⟨14, 6, 6, 5⟩

/-- The multiplier of the hash of `k` bytes. -/
def hashPrime (k : Nat) : UInt64 :=
  if k = 4 then 2654435761 else if k = 5 then 889523592379 else 227718039650203

/-- The hash of the low `t.hashBytes` bytes of a word, below `2^t.tableBits`. -/
def Tuning.hash (t : Tuning) (v : UInt64) : Nat :=
  (((v <<< (64 - 8 * t.hashBytes).toUInt64) * hashPrime t.hashBytes) >>>
    (64 - t.tableBits).toUInt64).toNat

/-- The bytes before the last eight, where matching stops. -/
def tailMargin : Nat := 8

/-- A literal element holding `lit`. -/
def literalElement (lit : ByteArray) : ByteArray :=
  if lit.size = 0 then ByteArray.empty
  else
    let n := lit.size - 1
    let head : List UInt8 :=
      if n < 60 then [(n * 4).toUInt8]
      else if n < 256 then [240, n.toUInt8]
      else if n < 65536 then [244, (n % 256).toUInt8, (n / 256).toUInt8]
      else if n < 16777216 then [248, (n % 256).toUInt8, (n / 256 % 256).toUInt8, (n / 65536).toUInt8]
      else [252, (n % 256).toUInt8, (n / 256 % 256).toUInt8, (n / 65536 % 256).toUInt8,
        (n / 16777216).toUInt8]
    ⟨head.toArray⟩ ++ lit

/-- A repeat element: `length ≥ 4` bytes at the last offset, restated as `offset` in the short
form when that is cheaper. -/
def repeatElement (offset : Nat) : Nat → Nat → ByteArray
  | 0, _ => ByteArray.empty
  | fuel + 1, length =>
    let l := length - 4
    if l ≤ 4 then ⟨#[(l * 4 + 1).toUInt8, 0]⟩
    else if l < 8 ∧ offset < 2048 then ⟨#[(offset / 256 * 32 + l * 4 + 1).toUInt8, (offset % 256).toUInt8]⟩
    else if l < 260 then ⟨#[21, 0, (l - 4).toUInt8]⟩
    else if l < 65792 then
      let r := l - 256
      ⟨#[25, 0, (r % 256).toUInt8, (r / 256).toUInt8]⟩
    else
      let r := l - 65536
      let most := 16777215
      if r > most then
        ⟨#[29, 0, ((most - 4) % 256).toUInt8, ((most - 4) / 256 % 256).toUInt8,
          ((most - 4) / 65536).toUInt8]⟩ ++ repeatElement offset fuel (r - most + 4)
      else ⟨#[29, 0, (r % 256).toUInt8, (r / 256 % 256).toUInt8, (r / 65536).toUInt8]⟩

/-- The elements copying `length ≥ 4` bytes from `offset` back. -/
def copyElements (offset length : Nat) : ByteArray :=
  let le4 : List UInt8 :=
    [(offset % 256).toUInt8, (offset / 256 % 256).toUInt8, (offset / 65536 % 256).toUInt8,
      (offset / 16777216 % 256).toUInt8]
  if offset ≥ 65536 then
    if length > 64 then
      let rest := length - 64
      let first : ByteArray := ⟨(255 :: le4).toArray⟩
      if rest ≥ 4 then first ++ repeatElement offset (length + 1) rest
      else if rest = 0 then first
      else first ++ ⟨(((rest - 1) * 4 + 3).toUInt8 :: le4).toArray⟩
    else ⟨(((length - 1) * 4 + 3).toUInt8 :: le4).toArray⟩
  else if length > 64 then
    if offset < 2048 then
      ⟨#[(offset / 256 * 32 + 16 + 1).toUInt8, (offset % 256).toUInt8]⟩ ++
        repeatElement offset (length + 1) (length - 8)
    else ⟨#[(59 * 4 + 2).toUInt8, (offset % 256).toUInt8, (offset / 256).toUInt8]⟩ ++
        repeatElement offset (length + 1) (length - 60)
  else if length ≥ 12 ∨ offset ≥ 2048 then
    ⟨#[((length - 1) * 4 + 2).toUInt8, (offset % 256).toUInt8, (offset / 256).toUInt8]⟩
  else ⟨#[(offset / 256 * 32 + (length - 4) * 4 + 1).toUInt8, (offset % 256).toUInt8]⟩

/-- What the encoder is doing next. -/
inductive Mode where
  /-- looking for a match at a position -/
  | search (s : Nat)
  /-- a four-byte match at `s` with an earlier `candidate` -/
  | found (s candidate : Nat)
  /-- a copy from the match at `s` with an earlier `candidate`, no literals pending -/
  | copy (s candidate : Nat)
  /-- writing the last literals -/
  | finish
  /-- giving up: the block is written as one literal -/
  | giveUp
  /-- done -/
  | done

/-- The state of the encoder: the hash table, the elements so far, the start of the pending
literals and the last copy offset. -/
structure Encoder where
  table : Array Nat
  out : ByteArray
  pending : Nat
  offset : Nat

/-- The four bytes at `i` as a word. -/
def word32At (src : ByteArray) (i : Nat) : UInt32 := Lz4.word32 src i

/-- Extends a match at `s` with an earlier `c` backwards over the pending literals. -/
def backOver (src : ByteArray) (pending : Nat) : Nat → Nat → Nat → Nat × Nat
  | 0, s, c => (s, c)
  | fuel + 1, s, c =>
    if 0 < c ∧ pending < s ∧ byteAt src (c - 1) = byteAt src (s - 1) then
      backOver src pending fuel (s - 1) (c - 1)
    else (s, c)

/-- One step of the encoder on `src` with tuning `t`, the matching limit `limit` and the
output limit `room`. -/
def encodeStep (src : ByteArray) (t : Tuning) (limit room : Nat) (e : Encoder) :
    Mode → Encoder × Mode
  | .search s =>
    let next := s + ((s - e.pending) >>> t.skipShift) + 4
    if next > limit then (e, .finish)
    else
      let cv := Lz4.word64 src s
      let h0 := t.hash cv
      let h1 := t.hash (cv >>> 8)
      let c0 := e.table.getD h0 0
      let c1 := e.table.getD h1 0
      let table := (e.table.setIfInBounds h0 s).setIfInBounds h1 (s + 1)
      let h2 := t.hash (cv >>> 16)
      let e := { e with table := table }
      if (cv >>> 8).toUInt32 = word32At src (s - e.offset + 1) then
        let (base, _) := backOver src e.pending (s + 1) (s + 1) (s + 1 - e.offset)
        if e.out.size + (base - e.pending) + t.headerRoom ≥ room then (e, .giveUp)
        else
          let out := e.out ++ literalElement (src.extract e.pending base)
          let s' := s + 5
          let s' := s' + commonLength src s' (s' - e.offset) (src.size - s') 0
          let out := out ++
            (if e.pending > 0 then repeatElement e.offset (s' + 1) (s' - base)
              else copyElements e.offset (s' - base))
          let e := { e with out := out, pending := s' }
          if s' ≥ limit then (e, .finish) else (e, .search s')
      else if word32At src c0 = cv.toUInt32 then (e, .found s c0)
      else
        let c2 := table.getD h2 0
        let e := { e with table := table.setIfInBounds h2 (s + 2) }
        if word32At src c1 = (cv >>> 8).toUInt32 then (e, .found (s + 1) c1)
        else if word32At src c2 = (cv >>> 16).toUInt32 then (e, .found (s + 2) c2)
        else (e, .search next)
  | .found s c =>
    let (s, c) := backOver src e.pending s s c
    if e.out.size + (s - e.pending) + t.headerRoom ≥ room then (e, .giveUp)
    else ({ e with out := e.out ++ literalElement (src.extract e.pending s) }, .copy s c)
  | .copy s c =>
    let offset := s - c
    let stop := s + 4 + commonLength src (s + 4) (c + 4) (src.size - (s + 4)) 0
    let e := { e with out := e.out ++ copyElements offset (stop - s), pending := stop, offset := offset }
    if stop ≥ limit then (e, .finish)
    else if e.out.size ≥ room then (e, .giveUp)
    else
      let x := Lz4.word64 src (stop - 2)
      let h0 := t.hash x
      let h1 := t.hash (x >>> 16)
      let c' := e.table.getD h1 0
      let e := { e with table := (e.table.setIfInBounds h0 (stop - 2)).setIfInBounds h1 stop }
      if word32At src c' = (x >>> 16).toUInt32 then (e, .copy stop c') else (e, .search (stop + 1))
  | .finish =>
    if e.out.size + (src.size - e.pending) + t.headerRoom ≥ room then (e, .giveUp)
    else ({ e with out := e.out ++ literalElement (src.extract e.pending src.size) }, .done)
  | .giveUp => (e, .giveUp)
  | .done => (e, .done)

/-- Runs the encoder until it is done or gives up; at most `fuel` steps. -/
def encodeRun (src : ByteArray) (t : Tuning) (limit room : Nat) : Nat → Encoder → Mode → Encoder × Mode
  | 0, e, m => (e, m)
  | fuel + 1, e, m =>
    match m with
    | .done | .giveUp => (e, m)
    | _ =>
      let (e, m) := encodeStep src t limit room e m
      encodeRun src t limit room fuel e m

/-- The elements of a block holding `src`, or none when the encoder gives up. -/
def encodeElements (src : ByteArray) : Option ByteArray :=
  let n := src.size
  if n < 2 + tailMargin then none
  else
    let t := tuningFor n
    let e : Encoder := ⟨Array.replicate (Nat.pow 2 t.tableBits) 0, ByteArray.empty, 0, 1⟩
    match encodeRun src t (n - tailMargin) (n - 5 - n / 32) (4 * n + 16) e (.search 1) with
    | (e, .done) => some e.out
    | _ => none

/-- The compressed S2 block of `data`; see the module header. -/
def compressBlock (data : ByteArray) : ByteArray :=
  ⟨(uvarintBytes data.size).toArray⟩ ++
    match encodeElements data with
    | some elems => elems
    | none => literalElement data

end Decimation.Codec.S2
