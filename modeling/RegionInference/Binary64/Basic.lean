/-!
# Binary numbers of 64 bits

The values of the binary interchange format of 64 bits: a sign and a mantissa below 2 ^ 53 times a
power of two, or an infinity, or no number at all. Quotients of natural numbers are rounded to the
nearest value, and a tie goes to the even mantissa.
-/

namespace RegionInference

/-- A value of 64 bits. -/
inductive Binary64 where
  /-- The number `mantissa * 2 ^ exponent`, or its negation. -/
  | finite (negative : Bool) (mantissa : Nat) (exponent : Int)
  /-- An infinity. -/
  | infinite (negative : Bool)
  /-- No number. -/
  | nan
deriving DecidableEq

namespace Binary64

/-- How many bits a mantissa has at most. -/
def mantissaBits : Nat := 53

/-- The least exponent of two. -/
def minExponent : Int := -1074

/-- The greatest exponent of two. -/
def maxExponent : Int := 971

/-- Zero. -/
def zero (negative : Bool) : Binary64 :=
  .finite negative 0 minExponent

/-- Whether the value is zero, of either sign. -/
def isZero : Binary64 → Bool
  | .finite _ mantissa _ => mantissa == 0
  | .infinite _ => false
  | .nan => false

/-! ### Whole numbers nearby -/

/-- The whole part of a number, without its sign. -/
def wholePart (mantissa : Nat) (exponent : Int) : Nat :=
  if 0 ≤ exponent then mantissa <<< exponent.toNat else mantissa >>> (-exponent).toNat

/-- Whether a number has no fraction. -/
def isWhole (mantissa : Nat) (exponent : Int) : Bool :=
  0 ≤ exponent || wholePart mantissa exponent <<< (-exponent).toNat == mantissa

/-- The number without its fraction. -/
def truncate? : Binary64 → Option Int
  | .finite negative mantissa exponent =>
    let whole : Int := wholePart mantissa exponent
    some (if negative then -whole else whole)
  | .infinite _ => none
  | .nan => none

/-- The least whole number that is not below the value. -/
def ceil? : Binary64 → Option Int
  | .finite negative mantissa exponent =>
    let whole : Int := wholePart mantissa exponent
    some (if negative then -whole
      else if isWhole mantissa exponent then whole
      else whole + 1)
  | .infinite _ => none
  | .nan => none

/-- Whether the value is at most a natural number. -/
def atMost (value : Binary64) (n : Nat) : Bool :=
  match value with
  | .finite negative mantissa exponent =>
    (ceil? (.finite negative mantissa exponent)).any (· ≤ (n : Int))
  | .infinite negative => negative
  | .nan => false

/-! ### Rounding -/

/-- A quotient, rounded to the nearest natural number; a tie goes to the even one. -/
def roundQuotient (num den : Nat) : Nat :=
  let quotient := num / den
  let twice := 2 * (num % den)
  if twice < den || (twice == den && quotient % 2 == 0) then quotient else quotient + 1

/-- Whether `2 ^ exponent` is at most a quotient. -/
def powerFits (exponent : Int) (num den : Nat) : Bool :=
  if 0 ≤ exponent then den <<< exponent.toNat ≤ num else den ≤ num <<< (-exponent).toNat

/-- The exponent of the greatest power of two that is at most a positive quotient. -/
def leadingExponent (num den : Nat) : Int :=
  let estimate := (num.log2 : Int) - den.log2
  if powerFits estimate num den then estimate else estimate - 1

/-- The value nearest to a positive quotient, or to its negation. -/
def ofQuotient (negative : Bool) (num den : Nat) : Binary64 :=
  let exponent := max (leadingExponent num den - (mantissaBits - 1 : Nat)) minExponent
  let mantissa :=
    if 0 ≤ exponent then roundQuotient num (den <<< exponent.toNat)
    else roundQuotient (num <<< (-exponent).toNat) den
  let (mantissa, exponent) :=
    if mantissa == 1 <<< mantissaBits then (1 <<< (mantissaBits - 1), exponent + 1)
    else (mantissa, exponent)
  if maxExponent < exponent then .infinite negative else .finite negative mantissa exponent

end Binary64

end RegionInference
