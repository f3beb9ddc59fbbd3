import QueryOptions.Number.Binary64

/-!
Numbers as the library compares them: integers of any size beside floating-point numbers. The order
is that of the exact values, so no integer is rounded before it is compared; a number that is no
number stands in no order at all.
-/

namespace QueryOptions

inductive Number where
  | integer (value : Int)
  | real (value : Binary64)
  deriving DecidableEq, Repr, Inhabited

namespace Number

/-- Integers of 64 bits with a sign lie below this bound, and not below its negation. -/
def wordBound : Int := 9223372036854775808

/-- A number on the extended line: a fraction with a positive denominator between two ends. -/
inductive Point where
  | below
  | fraction (numerator : Int) (denominator : Nat)
  | above
  deriving DecidableEq, Repr

def point? : Number → Option Point
  | .integer value => some (.fraction value 1)
  | .real .nan => none
  | .real (.infinite true) => some .below
  | .real (.infinite false) => some .above
  | .real (.finite negative significand exponent) =>
      let value := Binary64.fraction negative significand exponent
      some (.fraction value.1 value.2)

def Point.compare : Point → Point → Ordering
  | .below, .below => .eq
  | .below, _ => .lt
  | .above, .above => .eq
  | .above, _ => .gt
  | .fraction _ _, .below => .gt
  | .fraction _ _, .above => .lt
  | .fraction leftNumerator leftDenominator, .fraction rightNumerator rightDenominator =>
      Ord.compare (leftNumerator * rightDenominator) (rightNumerator * leftDenominator)

def compare? (left right : Number) : Option Ordering := do
  let leftPoint ← left.point?
  let rightPoint ← right.point?
  return leftPoint.compare rightPoint

def isZero : Number → Bool
  | .integer value => value = 0
  | .real value => value.isZero

end Number

end QueryOptions
