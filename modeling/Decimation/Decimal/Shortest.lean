/-!
# Shortest decimal digits of a binary64 value

A finite binary64 value stands for every real that rounds to it under round-to-nearest-even:
the interval around `m * 2^q` that reaches halfway to each neighbour, its ends included exactly
when `m` is even. The shortest text of the value is a decimal inside that interval with the
fewest significant digits; of two such decimals on one grid the nearer is taken, and an exact
tie goes to the even one.

`Binary.ofBits` reads the magnitude out of a bit pattern, `Binary.readsBack` is the interval
test, and `Binary.shortest` searches the grids `10^(k-1)`, `10^(k-2)`, … downwards from the
value's leading digit. On each grid only the two neighbours of the value can lie in the
interval, so each grid costs two exact comparisons.
-/

namespace Decimation

/-- A finite positive binary64 magnitude `mantissa * 2^exponent`. -/
structure Binary where
  /-- the significand, with the hidden bit for normal values -/
  mantissa : Nat
  /-- the power of two of the last significand bit -/
  exponent : Int
  /-- the gap to the value below is half the gap to the value above (a power of two) -/
  narrowBelow : Bool
  deriving DecidableEq, Repr

/-- A decimal `coeff * 10^exp`. -/
structure Decimal where
  /-- the significant digits as a number -/
  coeff : Nat
  /-- the power of ten of the last digit -/
  exp : Int
  deriving DecidableEq, Repr

namespace Decimal

/-- Moves trailing zero digits of the coefficient into the exponent. -/
def normalize (d : Decimal) : Decimal :=
  if h : d.coeff ≠ 0 ∧ d.coeff % 10 = 0 then
    normalize ⟨d.coeff / 10, d.exp + 1⟩
  else d
termination_by d.coeff
decreasing_by exact Nat.div_lt_self (Nat.pos_of_ne_zero h.1) (by decide)

/-- The digits of the coefficient, most significant first. -/
def digits (d : Decimal) : String := toString d.coeff

/-- The position of the decimal point counted from the first digit: the value is
`0.digits * 10^point`. -/
def point (d : Decimal) : Int := (d.digits.length : Int) + d.exp

end Decimal

namespace Binary

/-- The magnitude held by the exponent and fraction fields of a bit pattern; the sign bit is
ignored. Meaningful for finite values, whose exponent field is below `0x7FF`. -/
def ofBits (b : UInt64) : Binary :=
  let e := ((b >>> 52) &&& 0x7FF).toNat
  let f := (b &&& 0xFFFFFFFFFFFFF).toNat
  if e = 0 then ⟨f, -1074, false⟩ else ⟨Nat.pow 2 52 + f, (e : Int) - 1075, f = 0 && e > 1⟩

/-- Compares `a * 10^i` with `n * 2^j` exactly, by moving negative powers to the other side. -/
def cmpScaled (a : Nat) (i : Int) (n : Nat) (j : Int) : Ordering :=
  compare (a * Nat.pow 10 i.toNat * Nat.pow 2 (-j).toNat) (n * Nat.pow 2 j.toNat * Nat.pow 10 (-i).toNat)

/-- `d` lies among the reals that round to `x` under round-to-nearest-even. -/
def readsBack (x : Binary) (d : Decimal) : Bool :=
  let lo := if x.narrowBelow then 4 * x.mantissa - 1 else 4 * x.mantissa - 2
  let hi := 4 * x.mantissa + 2
  let incl := x.mantissa % 2 == 0
  let cl := cmpScaled d.coeff d.exp lo (x.exponent - 2)
  let ch := cmpScaled d.coeff d.exp hi (x.exponent - 2)
  (cl == .gt || (incl && cl == .eq)) && (ch == .lt || (incl && ch == .eq))

/-- `x < 10^k`. -/
def lessThanPow10 (x : Binary) (k : Int) : Bool :=
  cmpScaled 1 k x.mantissa x.exponent == .gt

/-- Corrects an estimate of the scale by single steps, at most `fuel` of them. -/
def scaleFrom (x : Binary) : Nat → Int → Int
  | 0, k => k
  | fuel + 1, k =>
    if !x.lessThanPow10 k then scaleFrom x fuel (k + 1)
    else if x.lessThanPow10 (k - 1) then scaleFrom x fuel (k - 1)
    else k

/-- The least `k` with `x < 10^k`: estimated from the binary logarithm (`78913 / 2^18` is just
below `log10 2`), then corrected exactly. -/
def scale (x : Binary) : Int :=
  let log2 : Int := (x.mantissa.log2 : Int) + x.exponent
  x.scaleFrom 8 (log2 * 78913 / 262144 + 1)

/-- The decimal on the grid `10^g` that stands for `x`, if one of the two neighbours of `x` on
that grid reads back; of two, the nearer, and on an exact tie the even one. -/
def onGrid (x : Binary) (g : Int) : Option Decimal :=
  let num := x.mantissa * Nat.pow 2 x.exponent.toNat * Nat.pow 10 (-g).toNat
  let den := Nat.pow 2 (-x.exponent).toNat * Nat.pow 10 g.toNat
  let d := num / den
  let down : Decimal := ⟨d, g⟩
  let up : Decimal := ⟨d + 1, g⟩
  match x.readsBack down, x.readsBack up with
  | true, true =>
    match compare (2 * num) ((2 * d + 1) * den) with
    | .lt => some down
    | .gt => some up
    | .eq => some (if d % 2 == 0 then down else up)
  | true, false => some down
  | false, true => some up
  | false, false => none

/-- The exact decimal value of `x`. -/
def exact (x : Binary) : Decimal :=
  if 0 ≤ x.exponent then ⟨x.mantissa * Nat.pow 2 x.exponent.toNat, 0⟩
  else ⟨x.mantissa * Nat.pow 5 (-x.exponent).toNat, x.exponent⟩

/-- The shortest decimal that reads back as `x`, nearest on its grid, without trailing zeros.
Seventeen digits always suffice; the exact value stands behind the search as its last case. -/
def shortest (x : Binary) : Decimal :=
  let k := x.scale
  match (List.range 17).findSome? (fun n => x.onGrid (k - ((n + 1 : Nat) : Int))) with
  | some d => d.normalize
  | none => x.exact.normalize

end Binary

end Decimation
