import RegionInference.Binary64.Basic

/-!
# Writing with the fewest digits

A value is written with the fewest decimal digits that read back as the same value; of several such
decimals the nearest is taken, and a tie goes to the even digit. For one, two, … digits the two
neighbours of the value on the grid of decimals with so many digits are tested against the interval
of the numbers that round to the value. Seventeen digits always suffice.

Numbers from 10 ^ -4 up to 10 ^ 16 are written with a point and at least one digit on each side of
it; all others with an exponent of ten, which has a sign and at least two digits.
-/

namespace RegionInference.Binary64

/-- The numbers that round to a positive value, as quotients of one denominator. -/
structure Interval where
  /-- The numerator of the lower end. -/
  low : Nat
  /-- The numerator of the value itself. -/
  middle : Nat
  /-- The numerator of the upper end. -/
  high : Nat
  /-- The common denominator. -/
  den : Nat
  /-- Whether the ends belong to the interval. -/
  closed : Bool

/-- The numbers that round to `mantissa * 2 ^ exponent`. They reach half way to the neighbours; the
neighbour below a power of two is half as far away. -/
def interval (mantissa : Nat) (exponent : Int) : Interval :=
  let scale := exponent - 2
  let up (n : Nat) := if 0 ≤ scale then n <<< scale.toNat else n
  let narrow := mantissa == 1 <<< (mantissaBits - 1) && minExponent < exponent
  { low := up (4 * mantissa - if narrow then 1 else 2)
    middle := up (4 * mantissa)
    high := up (4 * mantissa + 2)
    den := if 0 ≤ scale then 1 else 1 <<< (-scale).toNat
    closed := mantissa % 2 == 0 }

/-- A decimal: `digits * 10 ^ exponent`. -/
structure Decimal where
  /-- The digits. -/
  digits : Nat
  /-- The exponent of ten. -/
  exponent : Int
deriving DecidableEq

/-- Compares a decimal with a quotient. -/
def Decimal.compareTo (d : Decimal) (num den : Nat) : Ordering :=
  if 0 ≤ d.exponent then compare (d.digits * Nat.pow 10 d.exponent.toNat * den) num
  else compare (d.digits * den) (num * Nat.pow 10 (-d.exponent).toNat)

/-- Whether a decimal lies in an interval. -/
def Interval.contains (i : Interval) (d : Decimal) : Bool :=
  let aboveLow := match d.compareTo i.low i.den with
    | .lt => false
    | .eq => i.closed
    | .gt => true
  let belowHigh := match d.compareTo i.high i.den with
    | .lt => true
    | .eq => i.closed
    | .gt => false
  aboveLow && belowHigh

/-- The number of digits before the point of a quotient; for one below a tenth, less than zero by
the zeros after the point. -/
def pointPosition (num den : Nat) : Int :=
  (Nat.toDigits 10 (num * Nat.pow 10 400 / den)).length - 400

/-- The decimal with so many digits that is nearest to the middle of an interval and lies in it. -/
def Interval.nearest? (i : Interval) (point : Int) (digits : Nat) : Option Decimal :=
  let exponent := point - digits
  let below :=
    if 0 ≤ exponent then i.middle / (i.den * Nat.pow 10 exponent.toNat)
    else i.middle * Nat.pow 10 (-exponent).toNat / i.den
  let lower : Decimal := ⟨below, exponent⟩
  let upper : Decimal := ⟨below + 1, exponent⟩
  match i.contains lower, i.contains upper with
  | false, false => none
  | true, false => some lower
  | false, true => some upper
  | true, true =>
    match (⟨2 * below + 1, exponent⟩ : Decimal).compareTo (2 * i.middle) i.den with
    | .lt => some upper
    | .gt => some lower
    | .eq => some (if below % 2 == 0 then lower else upper)

/-- How many digits always suffice. -/
def maxDigits : Nat := 17

/-- The shortest decimal in the interval of a positive value. -/
def shortest (mantissa : Nat) (exponent : Int) : Decimal :=
  let i := interval mantissa exponent
  let point := pointPosition i.middle i.den
  ((List.range maxDigits).findSome? fun n => i.nearest? point (n + 1)).getD ⟨0, 0⟩

/-- An exponent of ten with its sign and at least two digits. -/
def exponentText (exponent : Int) : List Char :=
  let digits := Nat.toDigits 10 exponent.natAbs
  let padded := if digits.length < 2 then '0' :: digits else digits
  'e' :: (if exponent < 0 then '-' else '+') :: padded

/-- Writes digits, of which the last is not zero, with the point after `point` of them. -/
def layOut (digits : List Char) (point : Int) : List Char :=
  if point ≤ -4 || 16 < point then
    let fraction := digits.drop 1
    digits.take 1 ++ (if fraction.isEmpty then [] else '.' :: fraction) ++ exponentText (point - 1)
  else if point ≤ 0 then '0' :: '.' :: List.replicate (-point).toNat '0' ++ digits
  else if digits.length ≤ point.toNat then
    digits ++ List.replicate (point.toNat - digits.length) '0' ++ ['.', '0']
  else digits.take point.toNat ++ '.' :: digits.drop point.toNat

/-- The text of a number without its sign. -/
def magnitudeText (mantissa : Nat) (exponent : Int) : List Char :=
  if mantissa == 0 then "0.0".toList
  else
    let decimal := shortest mantissa exponent
    let digits := Nat.toDigits 10 decimal.digits
    let kept := (digits.reverse.dropWhile (· == '0')).reverse
    layOut kept (digits.length + decimal.exponent)

/-- The text of a value. -/
def text : Binary64 → String
  | .finite negative mantissa exponent =>
    (if negative then "-" else "") ++ String.ofList (magnitudeText mantissa exponent)
  | .infinite negative => if negative then "-inf" else "inf"
  | .nan => "nan"

end RegionInference.Binary64
