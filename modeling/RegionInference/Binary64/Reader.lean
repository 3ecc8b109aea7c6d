import RegionInference.Binary64.Basic

/-!
# Reading decimals

The value of a number that is written in decimal digits, with or without a point and an exponent of
ten. Numbers that are too large become infinite, numbers that are too small become zero.
-/

namespace RegionInference.Binary64

/-- The value of decimal digits. -/
def digitsValue (cs : List Char) : Nat :=
  cs.foldl (fun acc c => 10 * acc + (c.toNat - '0'.toNat)) 0

/-- The value nearest to `digits * 10 ^ exponent`, or to its negation. Outside of 10 ^ -330 to
10 ^ 310 every number is zero or infinite, so that no large power is computed. -/
def ofDecimal (negative : Bool) (digits : Nat) (exponent : Int) : Binary64 :=
  let leading := (Nat.toDigits 10 digits).length + exponent
  if digits == 0 || leading < -330 then zero negative
  else if 310 < leading then .infinite negative
  else if 0 ≤ exponent then ofQuotient negative (digits * Nat.pow 10 exponent.toNat) 1
  else ofQuotient negative digits (Nat.pow 10 (-exponent).toNat)

/-- The exponent that is written behind a number, zero if there is none. -/
def readExponent : List Char → Int
  | mark :: '-' :: cs => if mark.toLower == 'e' then -(digitsValue cs : Int) else 0
  | mark :: '+' :: cs => if mark.toLower == 'e' then digitsValue cs else 0
  | mark :: cs => if mark.toLower == 'e' then digitsValue cs else 0
  | [] => 0

/-- Reads a number without its sign: a word for an infinity, or digits, a fraction and an
exponent. -/
def readMagnitude (negative : Bool) (cs : List Char) : Binary64 :=
  if cs == "Infinity".toList then .infinite negative
  else
    let whole := cs.takeWhile Char.isDigit
    let rest := cs.drop whole.length
    let fraction := match rest with
      | '.' :: rest => rest.takeWhile Char.isDigit
      | _ => []
    let exponent := match rest with
      | '.' :: rest => readExponent (rest.drop fraction.length)
      | rest => readExponent rest
    if whole.isEmpty then .nan
    else ofDecimal negative (digitsValue (whole ++ fraction)) (exponent - fraction.length)

/-- The value of a number as it is written. -/
def ofLiteral (literal : String) : Binary64 :=
  match literal.toList with
  | '-' :: cs => readMagnitude true cs
  | cs => readMagnitude false cs

end RegionInference.Binary64
