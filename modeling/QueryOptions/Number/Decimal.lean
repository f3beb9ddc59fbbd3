import QueryOptions.Number.Binary64

/-!
Floating-point numbers as decimal text. The digits are the fewest that read back as the same number
and, among those, the nearest to it; a layout then says where positional notation ends. Reading
accepts a sign, digits with a point, and an exponent.
-/

namespace QueryOptions

structure Decimal where
  digits : Nat
  exponent : Int
  deriving DecidableEq, Repr

namespace Decimal

def dropZeros (fuel : Nat) (decimal : Decimal) : Decimal :=
  match fuel with
  | 0 => decimal
  | fuel + 1 =>
      if decimal.digits ≠ 0 ∧ decimal.digits % 10 = 0 then
        dropZeros fuel ⟨decimal.digits / 10, decimal.exponent + 1⟩
      else decimal

/-- The quotient and the remainder of the exact value on the grid of the multiples of
`10 ^ exponent`, with the divisor. -/
def onGrid (numerator denominator : Nat) (exponent : Int) : Nat × Nat × Nat :=
  let scaled :=
    if 0 ≤ exponent then (numerator, denominator * Nat.pow 10 exponent.toNat)
    else (numerator * Nat.pow 10 (-exponent).toNat, denominator)
  (scaled.1 / scaled.2, scaled.1 % scaled.2, scaled.2)

def leadingExponent (numerator denominator : Nat) : Int :=
  let guess : Int := Binary64.decimalLength numerator - Binary64.decimalLength denominator
  let reached :=
    if 0 ≤ guess then denominator * Nat.pow 10 guess.toNat ≤ numerator
    else denominator ≤ numerator * Nat.pow 10 (-guess).toNat
  if reached then guess else guess - 1

/-- The decimal of a count of digits nearest to a positive ratio, a tie going to the even digit. -/
def nearest (count : Nat) (numerator denominator : Nat) : Decimal :=
  let exponent := leadingExponent numerator denominator - count + 1
  let (quotient, remainder, divisor) := onGrid numerator denominator exponent
  let up := divisor < 2 * remainder ∨ (divisor = 2 * remainder ∧ quotient % 2 = 1)
  ⟨if up then quotient + 1 else quotient, exponent⟩

def neighbours (count : Nat) (numerator denominator : Nat) : List Decimal :=
  let exponent := leadingExponent numerator denominator - count + 1
  let (quotient, remainder, divisor) := onGrid numerator denominator exponent
  let lower : Decimal := ⟨quotient, exponent⟩
  if remainder = 0 then [lower]
  else
    let upper : Decimal := ⟨quotient + 1, exponent⟩
    let up := divisor < 2 * remainder ∨ (divisor = 2 * remainder ∧ quotient % 2 = 1)
    if up then [upper, lower] else [lower, upper]

def exact (significand : Nat) (exponent : Int) : Decimal :=
  if 0 ≤ exponent then ⟨significand * Nat.pow 2 exponent.toNat, 0⟩
  else ⟨significand * Nat.pow 5 (-exponent).toNat, exponent⟩

def firstReadingBack (significand : Nat) (exponent : Int) : List Nat → Decimal
  | [] => exact significand exponent
  | count :: counts =>
      let value := Binary64.fraction false significand exponent
      match (neighbours count value.1.toNat value.2).find? fun candidate =>
        Binary64.ofDecimal false candidate.digits candidate.exponent =
          .finite false significand exponent with
      | some candidate => candidate
      | none => firstReadingBack significand exponent counts

/-- The fewest digits that read back. Seventeen always suffice. -/
def shortest (significand : Nat) (exponent : Int) : Decimal :=
  dropZeros 400 (firstReadingBack significand exponent ((List.range 17).map (· + 1)))

end Decimal

structure DecimalLayout where
  /-- The least exponent of the leading digit written positionally. -/
  leastPositional : Int
  /-- The first exponent of the leading digit that is written with an exponent mark again. -/
  firstScientific : Int
  /-- Whether a whole significand before an exponent mark keeps a fraction of zero. -/
  keepsPoint : Bool
  infinity : String
  notANumber : String

namespace DecimalLayout

def digitText (n : Nat) : List Char := Nat.toDigits 10 n

/-- The exponent has a sign and at least two digits. -/
def exponentText (exponent : Int) : List Char :=
  let digits := digitText exponent.natAbs
  'e' :: (if exponent < 0 then '-' else '+') ::
    (List.replicate (2 - digits.length) '0' ++ digits)

def positional (digits : List Char) (leading : Int) : List Char :=
  if leading < 0 then '0' :: '.' :: (List.replicate (-leading - 1).toNat '0' ++ digits)
  else
    let whole := leading.toNat + 1
    if digits.length ≤ whole then
      digits ++ List.replicate (whole - digits.length) '0' ++ ['.', '0']
    else digits.take whole ++ '.' :: digits.drop whole

def scientific (layout : DecimalLayout) (digits : List Char) (leading : Int) : List Char :=
  let fraction := match digits.drop 1 with
    | [] => if layout.keepsPoint then ['.', '0'] else []
    | others => '.' :: others
  digits.take 1 ++ fraction ++ exponentText leading

def unsigned (layout : DecimalLayout) (decimal : Decimal) : List Char :=
  let digits := digitText decimal.digits
  let leading := decimal.exponent + digits.length - 1
  if layout.leastPositional ≤ leading ∧ leading < layout.firstScientific then
    positional digits leading
  else layout.scientific digits leading

def render (layout : DecimalLayout) (choose : Nat → Int → Decimal) : Binary64 → List Char
  | .nan => layout.notANumber.toList
  | .infinite negative => (if negative then ['-'] else []) ++ layout.infinity.toList
  | .finite negative significand exponent =>
      let body :=
        if significand = 0 then ['0', '.', '0']
        else layout.unsigned (choose significand exponent)
      (if negative then ['-'] else []) ++ body

/-- Values and messages write numbers positionally below `10 ^ 16` and down to `10 ^ -4`. -/
def plain : DecimalLayout where
  leastPositional := -4
  firstScientific := 16
  keepsPoint := false
  infinity := "inf"
  notANumber := "nan"

end DecimalLayout

namespace Binary64

/-- The text of a number: the fewest digits that read back. -/
def text (value : Binary64) : String :=
  String.ofList (DecimalLayout.plain.render Decimal.shortest value)

end Binary64

end QueryOptions
