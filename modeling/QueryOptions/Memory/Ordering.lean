import QueryOptions.Operator
import QueryOptions.Value.Order

/-!
Ordering rows by a value of each. The order is stable in both directions, and null is below all
other values. A column whose values do not all compare is ordered by kind first.
-/

namespace QueryOptions.Memory

/-- A strict order that may not be defined on every pair. -/
abbrev Less (α : Type) := α → α → Except Incomparable Bool

/-- Puts an element behind all that it is not below. The place is found by halving. -/
def insertSorted {α : Type} (less : Less α) (element : α) (sorted : List α) :
    Except Incomparable (List α) :=
  match _drop : sorted.drop (sorted.length / 2) with
  | [] => .ok [element]
  | middle :: above => do
      let below := sorted.take (sorted.length / 2)
      if ← less element middle then return (← insertSorted less element below) ++ middle :: above
      else return below ++ middle :: (← insertSorted less element above)
termination_by sorted.length
decreasing_by
  all_goals
    have := congrArg List.length _drop
    simp only [List.length_drop, List.length_cons, List.length_take] at this ⊢
    omega

/-- Takes elements off a list for as long as each falls below the one before it, or for as long as
none does. The elements taken come out with the last one first. -/
def takeRun {α : Type} (less : Less α) (falling : Bool) (taken : List α) (last : α) :
    List α → Except Incomparable (List α × List α)
  | [] => .ok (last :: taken, [])
  | next :: rest => do
      if (← less next last) = falling then takeRun less falling (last :: taken) next rest
      else return (last :: taken, next :: rest)

/-- Orders elements, keeping those that are not below each other in place: a leading run that rises
or falls throughout is taken as it is or turned around, and the others are inserted into it. -/
def sortBy {α : Type} (less : Less α) : List α → Except Incomparable (List α)
  | first :: second :: rest => do
      let falling ← less second first
      let (run, remaining) ← takeRun less falling [first] second rest
      remaining.foldlM (fun sorted element => insertSorted less element sorted)
        (if falling then run else run.reverse)
  | short => .ok short

/-- Equal elements keep their places under a descending order as well. -/
def sortDirected {α : Type} (less : Less α) (direction : Direction) (elements : List α) :
    Except Incomparable (List α) :=
  match direction with
  | .ascending => sortBy less elements
  | .descending => return (← sortBy less elements.reverse).reverse

/-- Equal values are not below each other, even where their kind has no order. -/
def valueLess (left right : Value) : Except Incomparable Bool := do
  if left.equal right then return false
  return (← left.order right) = some .lt

def keyLess (left right : Value) : Except Incomparable Bool :=
  match left, right with
  | .null, .null => .ok false
  | .null, _ => .ok true
  | _, .null => .ok false
  | _, _ => valueLess left right

def mixedLess (left right : Value) : Except Incomparable Bool :=
  match left, right with
  | .null, .null => .ok false
  | .null, _ => .ok true
  | _, .null => .ok false
  | _, _ =>
      if left.kindName = right.kindName then valueLess left right
      else .ok (left.kindName < right.kindName)

/-- Orders rows by a key. Kinds decide only when the values alone cannot be ordered. -/
def sortRows (key : Value → Value) (direction : Direction) (rows : List Value) :
    Except Incomparable (List Value) :=
  match sortDirected (fun left right => keyLess (key left) (key right)) direction rows with
  | .ok sorted => .ok sorted
  | .error _ => sortDirected (fun left right => mixedLess (key left) (key right)) direction rows

end QueryOptions.Memory
