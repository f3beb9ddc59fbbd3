import QueryOptions.Call
import QueryOptions.Memory.Ordering
import QueryOptions.Memory.Row

/-!
A backend over rows held in memory. Rows carry their related data, so expansions are only recorded;
predicates select, orderings sort, and the bounds cut a slice out of what is left. A predicate that
cannot be tested on a row makes the whole execution fail.
-/

namespace QueryOptions.Memory

/-- A predicate as this backend takes it. An operand that is missing is null. -/
structure Condition where
  field : String
  operator : Operator
  operand : Value := .null
  deriving Repr, Inhabited

def Condition.ofPredicate (predicate : Predicate) : Condition where
  field := predicate.field
  operator := predicate.operator
  operand := match predicate.binding with
    | some binding => binding.literal.value
    | none => .null

structure Collection where
  rows : List Value
  rootAlias : String := "entity"
  conditions : List Condition := []
  orderings : List (String × Direction) := []
  expansions : List String := []
  limit : Option Int := none
  offset : Option Int := none
  deriving Repr, Inhabited

namespace Collection

def addCondition (collection : Collection) (condition : Condition) : Collection :=
  { collection with conditions := collection.conditions ++ [condition] }

/-- The path of a field inside a row: a field of the root loses the alias. -/
def localPath (collection : Collection) (field : String) : String :=
  match Text.dropPrefix? (collection.rootAlias.toList ++ ['.']) field.toList with
  | some path => String.ofList path
  | none => field

section Selection

variable [Attributes]

def satisfies (collection : Collection) (row : Value) (condition : Condition) : Bool :=
  holds condition.operator (resolve row (collection.localPath condition.field)) condition.operand

/-- Conditions are tested in turn, up to the first one that does not hold. -/
def canTest (collection : Collection) (row : Value) (conditions : List Condition) : Bool :=
  conditions.foldr (fun condition rest =>
    Memory.isTestable condition.operator (resolve row (collection.localPath condition.field))
        condition.operand &&
      (!collection.satisfies row condition || rest)) true

def isTestable (collection : Collection) : Bool :=
  collection.rows.all fun row => collection.canTest row collection.conditions

def matching (collection : Collection) : List Value :=
  collection.rows.filter fun row => collection.conditions.all (collection.satisfies row)

/-- The matching rows in order: the orderings are applied from the last to the first, each keeping
what it does not decide. -/
def ordered (collection : Collection) : Except Incomparable (List Value) :=
  collection.orderings.reverse.foldlM (fun rows ordering =>
    sortRows (fun row => resolve row (collection.localPath ordering.1)) ordering.2 rows)
    collection.matching

end Selection

/-- A position in a list; negative ones count from the end. -/
def position (length index : Int) : Nat :=
  (min length (if index < 0 then max 0 (index + length) else index)).toNat

def slice (start : Int) (stop : Option Int) (rows : List Value) : List Value :=
  let first := position rows.length start
  let last := match stop with
    | some stop => position rows.length stop
    | none => rows.length
  (rows.take last).drop first

/-- The bounds are not checked. A limit of zero is none. -/
def bounded (collection : Collection) (rows : List Value) : List Value :=
  let start := collection.offset.getD 0
  let stop := match collection.limit with
    | some limit => if limit = 0 then none else some (start + limit)
    | none => none
  slice start stop rows

def execute [Attributes] (collection : Collection) : Except Failure Answer :=
  if collection.isTestable then
    match collection.ordered with
    | .error failure => .error (.incomparable failure)
    | .ok rows => .ok ⟨collection.bounded rows, collection.matching.length⟩
  else .error (.unwritable {})

def receive (collection : Collection) : Call → Collection
  | .addPredicate predicate => collection.addCondition (.ofPredicate predicate)
  | .addOrdering field direction =>
      { collection with orderings := collection.orderings ++ [(field, direction)] }
  | .addExpansion relation =>
      if collection.expansions.contains relation then collection
      else { collection with expansions := collection.expansions ++ [relation] }
  | .setLimit limit => { collection with limit := some limit }
  | .setOffset offset => { collection with offset := some offset }

instance [Attributes] : Backend Collection where
  receive := receive
  execute collection := (collection, collection.execute)

end Collection

end QueryOptions.Memory
