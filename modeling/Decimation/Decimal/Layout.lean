import Decimation.Decimal.Shortest
/-!
# Laying out decimals as text

The text of a float is its shortest decimal in *general* notation: positional when the leading
digit's power of ten `e` satisfies `-4 ≤ e < 6`, otherwise scientific as `d.ddde±XX` with a
signed exponent of at least two digits. Negative values, negative zero included, carry `-`;
the infinities are `+Inf` and `-Inf`, and every NaN is `NaN`.

Fixed notation with `p` places rounds the exact binary value to a multiple of `10^-p`, a half
going to the even neighbour.
-/

namespace Decimation

namespace Decimal

/-- `n` zero characters. -/
def zeros (n : Nat) : String := String.ofList (List.replicate n '0')

/-- Positional text of the digit string `ds` whose point stands after `point` digits; the point
may lie before the first digit or past the last one. -/
def positionalText (ds : String) (point : Int) : String :=
  if point ≤ 0 then "0." ++ zeros point.natAbs ++ ds
  else if ds.length ≤ point.toNat then ds ++ zeros (point.toNat - ds.length)
  else
    let cs := ds.toList
    String.ofList (cs.take point.toNat) ++ "." ++ String.ofList (cs.drop point.toNat)

/-- Scientific text `d.ddde±XX` of the digit string `ds` with leading exponent `e`. -/
def scientificText (ds : String) (e : Int) : String :=
  let cs := ds.toList
  let mant := match cs with
    | [] => "0"
    | [c] => String.singleton c
    | c :: rest => String.singleton c ++ "." ++ String.ofList rest
  let mag := toString e.natAbs
  let mag := if mag.length < 2 then "0" ++ mag else mag
  mant ++ "e" ++ (if e < 0 then "-" else "+") ++ mag

/-- General notation: positional for leading exponents in `[-4, 6)`, scientific otherwise. -/
def generalText (d : Decimal) : String :=
  let e := d.point - 1
  if e < -4 || 6 ≤ e then scientificText d.digits e
  else positionalText d.digits d.point

end Decimal

/-- The general-notation text of a non-negative finite float given by its bits. -/
def magnitudeText (bits : UInt64) : String :=
  let x := Binary.ofBits bits
  if x.mantissa = 0 then "0" else (x.shortest).generalText

/-- The text of a float: shortest digits in general notation with `-` for negative values
(negative zero too), `+Inf`, `-Inf` and `NaN`. -/
def floatText (f : Float) : String :=
  if f.isNaN then "NaN"
  else
    let neg := f.toBits >>> 63 == 1
    if f.isInf then (if neg then "-Inf" else "+Inf")
    else (if neg then "-" else "") ++ magnitudeText f.toBits

/-- `num / den` rounded to the nearest natural number, a half going to the even one. -/
def roundHalfEven (num den : Nat) : Nat :=
  let q := num / den
  let r := num % den
  if 2 * r > den || (2 * r == den && q % 2 == 1) then q + 1 else q

/-- The text of a float with exactly `places` digits after the point, rounded half to even
from its exact value; `+Inf`, `-Inf` and `NaN` as in `floatText`. -/
def fixedText (f : Float) (places : Nat) : String :=
  if f.isNaN then "NaN"
  else
    let neg := f.toBits >>> 63 == 1
    if f.isInf then (if neg then "-Inf" else "+Inf")
    else
      let x := Binary.ofBits f.toBits
      let scaled := x.mantissa * Nat.pow 2 x.exponent.toNat * Nat.pow 10 places
      let units := roundHalfEven scaled (Nat.pow 2 (-x.exponent).toNat)
      let ds := toString units
      let ds := if ds.length ≤ places then Decimal.zeros (places + 1 - ds.length) ++ ds else ds
      let whole := ds.length - places
      let body :=
        if places = 0 then ds
        else String.ofList (ds.toList.take whole) ++ "." ++ String.ofList (ds.toList.drop whole)
      (if neg then "-" else "") ++ body

end Decimation
