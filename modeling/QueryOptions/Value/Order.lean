import QueryOptions.Value.Basic

/-!
Equality and order of values. Any two values are equal or not; numbers and booleans compare by their
exact values, records by their entries in any order, objects by their attributes. Order is partial: texts stand by code points,
lists by their first difference, and values of unlike kinds do not compare at all.
-/

namespace QueryOptions

structure Incomparable where
  left : String
  right : String
  deriving DecidableEq, Repr, Inhabited

namespace Value

mutual

def equal : Value → Value → Bool
  | .null, .null => true
  | .text left, .text right => left = right
  | .list left, .list right => equalItems left right
  | .record left, .record right => left.length = right.length && entriesWithin left right
  | .object _ _ left, .object _ _ right => left.length = right.length && entriesWithin left right
  | left, right =>
      match left.number?, right.number? with
      | some leftNumber, some rightNumber => leftNumber.compare? rightNumber = some .eq
      | _, _ => false

def equalItems : List Value → List Value → Bool
  | [], [] => true
  | left :: lefts, right :: rights => equal left right && equalItems lefts rights
  | _, _ => false

def entriesWithin : List (String × Value) → List (String × Value) → Bool
  | [], _ => true
  | entry :: entries, others =>
      equalUnder entry others && entriesWithin entries others

def equalUnder : String × Value → List (String × Value) → Bool
  | (key, value), others =>
      match lookup key others with
      | some other => equal value other
      | none => false

end

def compareText (left right : String) : Ordering :=
  if left = right then .eq else if left < right then .lt else .gt

mutual

/-- The order of two values; nothing when one of them is no number. -/
def order : Value → Value → Except Incomparable (Option Ordering)
  | .text left, .text right => .ok (some (compareText left right))
  | .list left, .list right => orderItems left right
  | left, right =>
      match left.number?, right.number? with
      | some leftNumber, some rightNumber => .ok (leftNumber.compare? rightNumber)
      | _, _ => .error ⟨left.kindName, right.kindName⟩

/-- The first pair that is not equal decides; a list is above its own beginnings. -/
def orderItems : List Value → List Value → Except Incomparable (Option Ordering)
  | [], [] => .ok (some .eq)
  | [], _ :: _ => .ok (some .lt)
  | _ :: _, [] => .ok (some .gt)
  | left :: lefts, right :: rights =>
      if equal left right then orderItems lefts rights else order left right

end

end Value

end QueryOptions
