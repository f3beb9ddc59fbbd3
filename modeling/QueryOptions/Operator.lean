/-!
The operators of filter clauses and the directions of sorts, with their keywords.
-/

namespace QueryOptions

inductive Comparison where
  | eq | ne | gt | ge | lt | le
  deriving DecidableEq, Repr, Inhabited

inductive Pattern where
  | contains | startsWith | endsWith
  deriving DecidableEq, Repr, Inhabited

inductive Operator where
  | isNull
  | isNotNull
  | comparison (kind : Comparison)
  | pattern (kind : Pattern)
  deriving DecidableEq, Repr, Inhabited

inductive Direction where
  | ascending | descending
  deriving DecidableEq, Repr, Inhabited

namespace Comparison

def keyword : Comparison → String
  | .eq => "eq"
  | .ne => "ne"
  | .gt => "gt"
  | .ge => "ge"
  | .lt => "lt"
  | .le => "le"

def symbol : Comparison → String
  | .eq => "="
  | .ne => "!="
  | .gt => ">"
  | .ge => ">="
  | .lt => "<"
  | .le => "<="

/-- Whether the comparison holds of two values in the given order. Values without an order, such as
those that are no number, are only unequal. -/
def holds (comparison : Comparison) (order : Option Ordering) : Bool :=
  match comparison with
  | .eq => order = some .eq
  | .ne => order ≠ some .eq
  | .gt => order = some .gt
  | .ge => order = some .gt || order = some .eq
  | .lt => order = some .lt
  | .le => order = some .lt || order = some .eq

end Comparison

namespace Pattern

def keyword : Pattern → String
  | .contains => "contains"
  | .startsWith => "startswith"
  | .endsWith => "endswith"

end Pattern

namespace Operator

def all : List Operator :=
  [.isNull, .isNotNull, .comparison .eq, .comparison .ne, .comparison .gt, .comparison .ge,
    .comparison .lt, .comparison .le, .pattern .contains, .pattern .startsWith,
    .pattern .endsWith]

def name : Operator → String
  | .isNull => "is_null"
  | .isNotNull => "is_not_null"
  | .comparison kind => kind.keyword
  | .pattern kind => kind.keyword

def ofName? (name : String) : Option Operator := all.find? fun operator => operator.name = name

end Operator

namespace Direction

def keyword : Direction → String
  | .ascending => "ASC"
  | .descending => "DESC"

def ofKeyword? (keyword : String) : Option Direction :=
  [Direction.ascending, .descending].find? fun direction => direction.keyword = keyword

end Direction

end QueryOptions
