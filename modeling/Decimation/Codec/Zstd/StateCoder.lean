import Decimation.Codec.Zstd.Distribution
import Decimation.Codec.Zstd.Fse
/-!
# Coding symbols with a table of states

The coder is the counterpart of a decoding table (`buildTable`). Its state is a number in
`[2^log, 2^(log+1))`. Coding a symbol writes the low bits of the state, as many as the symbol
needs from that state, and moves to the state whose cell decodes the symbol and leads back to
the old state. A stream starts from a state chosen for its first symbol and ends by writing
the state itself; the decoder reads all of it backward.

For each symbol the coder keeps `deltaBits` and `deltaFind`: from state `x` the symbol takes
`(x + deltaBits) / 2^16` bits and leads to `next[(x >>> bits) + deltaFind]`. `bitCost`
estimates, in 256ths of a bit, what a symbol costs on average.

`compressPairs` codes a list of small numbers with two states taking turns, as the weights of a
Huffman table are coded.
-/

namespace Decimation.Codec.Zstd

/-- A coder for a distribution of `2^log` cells. -/
structure StateCoder where
  log : Nat
  norm : Array Int
  next : Array Nat
  deltaBits : Array Nat
  deltaFind : Array Int

namespace StateCoder

/-- The positions of each symbol's first next state: running sums of the cells. -/
def firstStates (norm : Array Int) : Array Nat :=
  (norm.foldl (fun (acc : Array Nat × Nat) c =>
    (acc.1.push acc.2, acc.2 + (if c = -1 then 1 else c.toNat))) (#[], 0)).1

/-- The coder of a distribution of `2^log` cells. -/
def build (norm : Array Int) (log : Nat) : StateCoder :=
  let size := Nat.pow 2 log
  let cells := match spread norm log with
    | .ok cs => cs
    | .error _ => Array.replicate size 0
  let (next, _) := (List.range size).foldl
    (fun (acc : Array Nat × Array Nat) u =>
      let (next, pos) := acc
      let s := cells.getD u 0
      let p := pos.getD s 0
      (next.setIfInBounds p (size + u), pos.setIfInBounds s (p + 1)))
    (Array.replicate size 0, firstStates norm)
  let (deltaBits, deltaFind, _) := norm.foldl
    (fun (acc : Array Nat × Array Int × Int) c =>
      let (db, df, total) := acc
      if c = 0 then (db.push 0, df.push 0, total)
      else if c = -1 ∨ c = 1 then (db.push (log * 65536 - size), df.push (total - 1), total + 1)
      else
        let out := log - Nat.log2 (c.toNat - 1)
        (db.push (out * 65536 - (c.toNat <<< out)), df.push (total - c), total + c))
    (#[], #[], 0)
  ⟨log, norm, next, deltaBits, deltaFind⟩

/-- The state a stream starts from when its first symbol is `s`. -/
def start (c : StateCoder) (s : Nat) : Nat :=
  let db := c.deltaBits.getD s 0
  let bits := (db + 32768) / 65536
  let lead : Int := ((bits * 65536 : Nat) : Int) - db
  c.next.getD ((lead / (Nat.pow 2 bits : Nat)) + c.deltaFind.getD s 0).toNat 0

/-- Codes `s` from state `x`: the number of low bits of `x` written, and the next state. -/
def step (c : StateCoder) (x s : Nat) : Nat × Nat :=
  let bits := (x + c.deltaBits.getD s 0) / 65536
  (bits, c.next.getD (((x >>> bits : Nat) : Int) + c.deltaFind.getD s 0).toNat 0)

/-- Codes `s` from state `x` onto a stream: the stream and the next state. -/
def put (c : StateCoder) (w : BitWriter) (x s : Nat) : BitWriter × Nat :=
  let (bits, x') := c.step x s
  (w.add x bits, x')

/-- The estimated cost of `s`, in `2^-accuracy` bits. -/
def bitCost (c : StateCoder) (s accuracy : Nat) : Nat :=
  let db := c.deltaBits.getD s 0
  let least := db / 65536
  let gap := (least + 1) * 65536 - (db + Nat.pow 2 c.log)
  (least + 1) * Nat.pow 2 accuracy - (gap <<< accuracy) / Nat.pow 2 c.log

/-- The estimated size in bits of coding a histogram: none when a symbol seen has no cell or
would cost more than `log + 1` bits. -/
def approxSize (c : StateCoder) (hist : Array Nat) : Option Nat :=
  if c.norm.size < hist.size then none
  else
    let costs := (List.range hist.size).filterMap fun i =>
      let v := hist.getD i 0
      if v = 0 then some (some 0)
      else if c.norm.getD i 0 = 0 then some none
      else
        let b := c.bitCost i 8
        if b > (c.log + 1) * 256 then some none else some (some (v * b))
    if costs.any Option.isNone then none
    else some ((costs.map (·.getD 0)).foldr (· + ·) 0 / 256)

end StateCoder

/-- The stream of `xs` (at least three values) coded by two states taking turns, the last
value going to the first state. -/
def compressPairs (c : StateCoder) (xs : Array Nat) : ByteArray :=
  let n := xs.size
  let at_ (i : Nat) := xs.getD i 0
  let (w, s1, s2, ip) :=
    if n % 2 = 1 then
      let s1 := c.start (at_ (n - 1))
      let s2 := c.start (at_ (n - 2))
      let (w, s1) := c.put BitWriter.empty s1 (at_ (n - 3))
      (w, s1, s2, n - 3)
    else (BitWriter.empty, c.start (at_ (n - 2)), c.start (at_ (n - 1)), n - 2)
  let (w, s1, s2, ip) :=
    if ip % 4 = 2 then
      let (w, s2) := c.put w s2 (at_ (ip - 1))
      let (w, s1) := c.put w s1 (at_ (ip - 2))
      (w, s1, s2, ip - 2)
    else (w, s1, s2, ip)
  let (w, s1, s2) := (List.range (ip / 4)).foldl
    (fun (acc : BitWriter × Nat × Nat) k =>
      let (w, s1, s2) := acc
      let top := ip - 4 * k
      let (w, s2) := c.put w s2 (at_ (top - 1))
      let (w, s1) := c.put w s1 (at_ (top - 2))
      let (w, s2) := c.put w s2 (at_ (top - 3))
      let (w, s1) := c.put w s1 (at_ (top - 4))
      (w, s1, s2))
    (w, s1, s2)
  ((w.add s2 c.log).add s1 c.log).closed

/-- `xs` (small numbers) compressed as a description of their distribution followed by their
two-state stream, at accuracy at most `most`; none when that does not pay: fewer than three
values, one value throughout, no value seen twice, or a result not shorter than `xs`. -/
def compressSmall (xs : Array Nat) (most : Nat) : Option ByteArray :=
  let n := xs.size
  let maxSymbol := xs.foldl max 0
  let counts := xs.foldl (fun acc x => acc.modify x (· + 1)) (Array.replicate (maxSymbol + 1) 0)
  let largest := counts.foldl max 0
  if n ≤ 2 ∨ largest = n ∨ largest = 1 ∨ largest < n >>> 7 then none
  else
    let log := accuracyFor most 2 12 n maxSymbol
    let norm := normalizeCounts counts n log
    let out := describe norm log ++ compressPairs (StateCoder.build norm log) xs
    if out.size ≥ n then none else some out

end Decimation.Codec.Zstd
