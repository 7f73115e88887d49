/-!
# Timestamps

A plain scalar that reads as a date, or as a date and a time of day, is a timestamp. A text is
one when it has one of the forms

    YYYY-M-DTh:m:s[.f](Z|±hh:mm)     (the T also in lower case)
    YYYY-M-D h:m:s[.f]
    YYYY-M-D

where the year has four digits; the month, day, hour, minute and second one or two each; the
month is from 1 to 12 and the day exists in its month (February 29 only in a leap year); the
hour is below 24 and the minute and second below 60; the fraction `.f` is a point or a comma
followed by digits; one or more spaces separate the date from the time; and an offset has a
sign, an hour of at most 24 and a minute of at most 60, each of two digits. Nothing may follow.
-/

namespace Decimation.Yaml

/-- The value of a decimal digit. -/
def digitValue (c : Char) : Option Nat :=
  if '0' ≤ c ∧ c ≤ '9' then some (c.toNat - 48) else none

/-- A number of one or two digits at the front, as many as there are: the number and the
rest. -/
def leadNumber : List Char → Option (Nat × List Char)
  | a :: b :: rest =>
    match digitValue a, digitValue b with
    | some x, some y => some (10 * x + y, rest)
    | some x, none => some (x, b :: rest)
    | none, _ => none
  | [a] => (digitValue a).map fun x => (x, [])
  | [] => none

/-- A number of exactly two digits. -/
def twoDigits (a b : Char) : Option Nat := do
  return 10 * (← digitValue a) + (← digitValue b)

/-- Drops the character `c` at the front. -/
def expectChar (c : Char) : List Char → Option (List Char)
  | d :: rest => if d = c then some rest else none
  | [] => none

/-- A year divisible by 4 is a leap year, unless divisible by 100 but not by 400. -/
def leapYear (y : Nat) : Bool := y % 4 = 0 && (y % 100 != 0 || y % 400 = 0)

/-- The number of days of month `m` in year `y`. -/
def daysIn (m y : Nat) : Nat :=
  if m = 2 then (if leapYear y then 29 else 28)
  else if m = 4 ∨ m = 6 ∨ m = 9 ∨ m = 11 then 30
  else 31

/-- A date at the front, checked: the rest. -/
def leadDate : List Char → Option (List Char)
  | a :: b :: c :: d :: '-' :: rest => do
    let y := 1000 * (← digitValue a) + 100 * (← digitValue b) + 10 * (← digitValue c) +
      (← digitValue d)
    let (m, rest) ← leadNumber rest
    if m < 1 ∨ 12 < m then none
    let rest ← expectChar '-' rest
    let (day, rest) ← leadNumber rest
    if day < 1 ∨ daysIn m y < day then none
    return rest
  | _ => none

/-- Drops a fraction of a second at the front, if there is one. -/
def dropFraction : List Char → List Char
  | c :: d :: rest =>
    if (c = '.' ∨ c = ',') ∧ (digitValue d).isSome then rest.dropWhile fun e => (digitValue e).isSome
    else c :: d :: rest
  | cs => cs

/-- A time of day at the front, checked, with its fraction of a second: the rest. -/
def leadClock (cs : List Char) : Option (List Char) := do
  let (h, cs) ← leadNumber cs
  if 24 ≤ h then none
  let cs ← expectChar ':' cs
  let (m, cs) ← leadNumber cs
  if 60 ≤ m then none
  let cs ← expectChar ':' cs
  let (s, cs) ← leadNumber cs
  if 60 ≤ s then none
  return dropFraction cs

/-- The whole text is a zone: `Z`, or an offset `±hh:mm`. -/
def isZone : List Char → Bool
  | ['Z'] => true
  | [sign, h1, h2, ':', m1, m2] =>
    match twoDigits h1 h2, twoDigits m1 m2 with
    | some h, some m => h ≤ 24 && m ≤ 60 && (sign = '+' || sign = '-')
    | _, _ => false
  | _ => false

/-- The text is a timestamp; see the module header. -/
def isTimestamp (text : String) : Bool :=
  match leadDate text.toList with
  | none => false
  | some [] => true
  | some (t :: rest) =>
    if t = 'T' ∨ t = 't' then
      match leadClock rest with
      | some zone => isZone zone
      | none => false
    else if t = ' ' then
      match leadClock (rest.dropWhile (· = ' ')) with
      | some [] => true
      | _ => false
    else false

end Decimation.Yaml
