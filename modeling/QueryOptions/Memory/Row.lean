import QueryOptions.Like
import QueryOptions.Operator
import QueryOptions.Text.Split
import QueryOptions.Value.Order
import QueryOptions.Value.Text

/-!
Rows of a collection in memory: values reached by dotted paths, and the conditions that they meet.
A comparison with null, or of values that do not compare, does not hold. A value answers also for
the attributes of its class. Classes are no part of a row, so what they have is left open.
-/

namespace QueryOptions.Memory

/-- What a value answers for a name beside its own entries and attributes: null where its class has
no such attribute, an object where it has a method. -/
class Attributes where
  ofClass : Value → String → Value

@[reducible] def Attributes.bare : Attributes := ⟨fun _ _ => .null⟩

section Paths

variable [Attributes]

/-- The value under one segment. Records answer for their entries alone, and null for nothing. -/
def step (value : Value) (segment : String) : Value :=
  match value with
  | .null => .null
  | .record entries => (Value.lookup segment entries).getD .null
  | .object _ _ attributes =>
      (Value.lookup segment attributes).getD (Attributes.ofClass value segment)
  | _ => Attributes.ofClass value segment

/-- Follows a dotted path; whatever is missing on the way is null. -/
def resolve (row : Value) (path : String) : Value :=
  ((Text.splitAtChar '.' path.toList).map String.ofList).foldl step row

end Paths

/-- Equality needs no order; the other comparisons hold only between values that have one. -/
def compares (comparison : Comparison) (field operand : Value) : Bool :=
  match comparison with
  | .eq => field.equal operand
  | .ne => !field.equal operand
  | _ =>
      match field.order operand with
      | .ok order => comparison.holds order
      | .error _ => false

/-- Patterns are matched against texts, so that a value without a text cannot be tested. -/
def isTestable (operator : Operator) (field operand : Value) : Bool :=
  match operator with
  | .pattern _ => field.isNull || operand.isNull || (operand.isWritable && field.isWritable)
  | _ => true

def holds (operator : Operator) (field operand : Value) : Bool :=
  match operator with
  | .isNull => field.isNull
  | .isNotNull => !field.isNull
  | .comparison kind => !field.isNull && !operand.isNull && compares kind field operand
  | .pattern _ =>
      !field.isNull && !operand.isNull &&
        Like.matchesExactly operand.plainText field.plainText

end QueryOptions.Memory
