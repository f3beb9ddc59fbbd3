import QueryOptions.Number.Binary64

/-!
Numerals with an optional sign, point and exponent, in ASCII digits. A numeral is read exactly, as
digits and a power of ten; rounding to a floating-point number is a second step.
-/

namespace QueryOptions

/-- The number `digits * 10 ^ exponent` with its sign, and whether it was written as a mere run of
digits. -/
structure Numeral where
  negative : Bool
  digits : Nat
  exponent : Int
  isWhole : Bool
  deriving DecidableEq, Repr

namespace Numeral

def digitsValue (digits : List Char) : Nat :=
  digits.foldl (fun value c => value * 10 + (c.toNat - 0x30)) 0

def readSign : List Char → Bool × List Char
  | '-' :: rest => (true, rest)
  | '+' :: rest => (false, rest)
  | text => (false, text)

def readExponent? : List Char → Option Int
  | [] => some 0
  | mark :: rest =>
      if mark ≠ 'e' && mark ≠ 'E' then none
      else
        let (negative, digits) := readSign rest
        if digits.isEmpty || !digits.all Char.isDigit then none
        else
          let magnitude : Int := digitsValue digits
          some (if negative then -magnitude else magnitude)

/-- Reads a whole text. A point needs a digit on at least one side. -/
def read? (text : List Char) : Option Numeral := do
  let (negative, body) := readSign text
  let whole := body.takeWhile Char.isDigit
  let afterWhole := body.dropWhile Char.isDigit
  let (fraction, afterFraction) := match afterWhole with
    | '.' :: rest => (rest.takeWhile Char.isDigit, rest.dropWhile Char.isDigit)
    | _ => ([], afterWhole)
  if whole.isEmpty && fraction.isEmpty then none
  let exponent ← readExponent? afterFraction
  return {
    negative := negative
    digits := digitsValue (whole ++ fraction)
    exponent := exponent - fraction.length
    isWhole := afterWhole.isEmpty }

def toBinary64 (numeral : Numeral) : Binary64 :=
  .ofDecimal numeral.negative numeral.digits numeral.exponent

end Numeral

end QueryOptions
