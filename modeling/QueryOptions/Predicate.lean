import QueryOptions.AllowList
import QueryOptions.Clause
import QueryOptions.Literal
import QueryOptions.Strictness

/-!
Predicates: clauses in a form that any backend can take. A predicate is a template with at most one
placeholder and the literal bound to it. The literal never enters the template, which is made of the
qualified field, the operator's symbol and the placeholder.
-/

namespace QueryOptions

structure Binding where
  name : String
  literal : Literal
  deriving DecidableEq, Repr, Inhabited

/-- The field and the operator repeat what the template says, for backends that do not read it. -/
structure Predicate where
  template : String
  binding : Option Binding
  field : String
  operator : Operator
  deriving DecidableEq, Repr, Inhabited

/-- A bare field belongs to the root; a dotted path stands as it is. -/
def qualifyField (name rootAlias : String) : String :=
  if name.toList.contains '.' then name else rootAlias ++ "." ++ name

def placeholder (index : Int) : String := "val" ++ toString index

structure Scope where
  access : Access := {}
  rootAlias : String := "entity"
  strictness : Strictness := .lenient
  deriving DecidableEq, Repr, Inhabited

/-- Why a filter could not be taken over: a part of it was refused, or a literal cannot be read. -/
inductive ClauseFailure where
  | rejected (rejection : Rejection)
  | integerTooLong (failure : IntegerTooLong)
  deriving DecidableEq, Repr, Inhabited

namespace Pattern

/-- The pattern that a literal's text becomes: wildcards stand where other text may. -/
def wrap (pattern : Pattern) (text : String) : String :=
  match pattern with
  | .contains => "%" ++ text ++ "%"
  | .startsWith => text ++ "%"
  | .endsWith => "%" ++ text

end Pattern

namespace Operator

def symbol : Operator → String
  | .isNull => "IS NULL"
  | .isNotNull => "IS NOT NULL"
  | .comparison kind => kind.symbol
  | .pattern _ => "LIKE"

def bind (operator : Operator) (raw : String) : Except IntegerTooLong (Option Literal) :=
  match operator with
  | .isNull | .isNotNull => .ok none
  | .comparison _ => do return some (← Literal.ofRaw raw)
  | .pattern kind => do return some (.text (kind.wrap (← Literal.ofRaw raw).asText))

end Operator

namespace Predicate

def onColumn (column : String) (operator : Operator) (binding : Option Binding) : Predicate where
  template := column ++ " " ++ operator.symbol ++ match binding with
    | some binding => " :" ++ binding.name
    | none => ""
  binding := binding
  field := column
  operator := operator

end Predicate

namespace Scope

/-- A clause is taken over when its field is a path and open to filtering. -/
def authorise (scope : Scope) (field : String) : Except Rejection Unit :=
  if Identifier.isPath field then scope.access.requireFilter field
  else .error (.invalidFieldName field)

def predicate (scope : Scope) (clause : Clause) (index : Int) :
    Except IntegerTooLong Predicate := do
  let literal ← clause.operator.bind (clause.rawValue.getD "")
  return .onColumn (qualifyField clause.field scope.rootAlias) clause.operator
    (literal.map fun literal => ⟨placeholder index, literal⟩)

/-- The predicate of a clause, or nothing for a clause that is dropped. The placeholder takes the
index, or else the clause's position. -/
def resolve (scope : Scope) (clause : Clause) (index : Option Int := none) :
    Except ClauseFailure (Option Predicate) :=
  match scope.strictness.settle (scope.authorise clause.field) with
  | .error rejection => .error (.rejected rejection)
  | .ok none => .ok none
  | .ok (some ()) =>
      match scope.predicate clause (index.getD clause.position) with
      | .error failure => .error (.integerTooLong failure)
      | .ok predicate => .ok (some predicate)

/-- The predicates of clauses in order, without those that are dropped. -/
def resolveAll (scope : Scope) :
    List Clause → Except ClauseFailure (List Predicate)
  | [] => .ok []
  | clause :: clauses => do
      let predicate ← scope.resolve clause
      let predicates ← resolveAll scope clauses
      return predicate.toList ++ predicates

end Scope

end QueryOptions
