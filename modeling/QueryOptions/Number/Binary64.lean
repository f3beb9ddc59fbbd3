/-!
Binary floating-point numbers of 64 bits, kept as sign, significand and exponent rather than as a
machine word, so that reading, comparing and writing them is exact integer arithmetic. A decimal
is read by rounding to the nearest number, a tie going to the even significand.
-/

namespace QueryOptions

/-- A finite number is `significand * 2 ^ exponent` with its sign. `Binary64.ofRatio` gives every
number in one form only: a significand of 53 bits, or a smaller one at the least exponent. -/
inductive Binary64 where
  | nan
  | infinite (negative : Bool)
  | finite (negative : Bool) (significand : Nat) (exponent : Int)
  deriving DecidableEq, Repr, Inhabited

namespace Binary64

def precision : Nat := 53

def leastExponent : Int := -1074

def greatestExponent : Int := 971

/-- The quotient of two numbers, rounded to the nearest integer, a tie going to the even one. -/
def roundedQuotient (numerator denominator : Nat) : Nat :=
  let quotient := numerator / denominator
  let doubled := 2 * (numerator % denominator)
  if doubled < denominator then quotient
  else if denominator < doubled then quotient + 1
  else if quotient % 2 = 0 then quotient else quotient + 1

def scaleDown (numerator denominator : Nat) (shift : Int) : Nat × Nat :=
  if 0 ≤ shift then (numerator, denominator * Nat.pow 2 shift.toNat)
  else (numerator * Nat.pow 2 (-shift).toNat, denominator)

/-- The exponent at which a positive ratio has a significand of at most 53 bits: the least one,
but never below `leastExponent`. The bit lengths of both parts give it up to one. -/
def exponentFor (numerator denominator : Nat) : Int :=
  let guess := max ((numerator.log2 : Int) - denominator.log2 - precision) leastExponent
  let scaled := scaleDown numerator denominator guess
  if scaled.1 < scaled.2 * Nat.pow 2 precision then guess else guess + 1

/-- Rounding may carry into one more bit; beyond the greatest exponent lies infinity. -/
def assemble (negative : Bool) (significand : Nat) (exponent : Int) : Binary64 :=
  let (significand, exponent) :=
    if significand = Nat.pow 2 precision then (Nat.pow 2 (precision - 1), exponent + 1)
    else (significand, exponent)
  if greatestExponent < exponent then .infinite negative
  else .finite negative significand exponent

def ofRatio (negative : Bool) (numerator denominator : Nat) : Binary64 :=
  if numerator = 0 then .finite negative 0 leastExponent
  else
    let exponent := exponentFor numerator denominator
    let scaled := scaleDown numerator denominator exponent
    assemble negative (roundedQuotient scaled.1 scaled.2) exponent

def decimalLength (n : Nat) : Nat := (Nat.toDigits 10 n).length

/-- The number nearest to `digits * 10 ^ exponent`. Exponents far outside the range are decided by
the magnitude alone, without forming the power. -/
def ofDecimal (negative : Bool) (digits : Nat) (exponent : Int) : Binary64 :=
  let magnitude := exponent + decimalLength digits
  if digits = 0 || magnitude < -400 then .finite negative 0 leastExponent
  else if 400 < magnitude then .infinite negative
  else if 0 ≤ exponent then ofRatio negative (digits * Nat.pow 10 exponent.toNat) 1
  else ofRatio negative digits (Nat.pow 10 (-exponent).toNat)

def isZero : Binary64 → Bool
  | .finite _ significand _ => significand = 0
  | _ => false

def fraction (negative : Bool) (significand : Nat) (exponent : Int) : Int × Nat :=
  let signed : Int := if negative then -significand else significand
  if 0 ≤ exponent then (signed * Nat.pow 2 exponent.toNat, 1)
  else (signed, Nat.pow 2 (-exponent).toNat)

def integer? : Binary64 → Option Int
  | .finite negative significand exponent =>
      let value := fraction negative significand exponent
      if value.1 % value.2 = 0 then some (value.1 / value.2) else none
  | _ => none

end Binary64

end QueryOptions
