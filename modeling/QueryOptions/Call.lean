import QueryOptions.Envelope
import QueryOptions.Predicate
import QueryOptions.Value.Order

/-!
The conversation between a request and the backend that holds the rows. The request restricts the
backend by a sequence of calls and then executes it; a backend answers an execution with rows and
the total before any bounds.
-/

namespace QueryOptions

/-- A restriction of what a backend will return. Ordering fields are qualified. -/
inductive Call where
  | addPredicate (predicate : Predicate)
  | addOrdering (field : String) (direction : Direction)
  | addExpansion (relation : String)
  | setLimit (limit : Int)
  | setOffset (offset : Int)
  deriving DecidableEq, Repr, Inhabited

structure Answer where
  rows : List Value
  total : Int
  deriving Repr, Inhabited

inductive Failure where
  | rejected (rejection : Rejection)
  | integerTooLong (failure : IntegerTooLong)
  /-- A text was needed of a value that has none. -/
  | unwritable (failure : Unwritable)
  | incomparable (failure : Incomparable)
  /-- A statement names a column that it does not have, or not just once. -/
  | unknownColumn (path : String)
  | ambiguousAlias (name : String)
  | unreadablePlaceholder (name : String)
  | integerOutOfRange (value : Int)
  | reported (message : String)
  deriving DecidableEq, Repr, Inhabited

def ClauseFailure.toFailure : ClauseFailure → Failure
  | .rejected rejection => .rejected rejection
  | .integerTooLong failure => .integerTooLong failure

def Incomparable.message (failure : Incomparable) : String :=
  s!"'<' not supported between instances of '{failure.left}' and '{failure.right}'"

/-- A holder of rows that takes calls and can be executed. -/
class Backend (β : Type) where
  receive : β → Call → β
  execute : β → β × Except Failure Answer

namespace Backend

def receiveAll {β : Type} [Backend β] (backend : β) (calls : List Call) : β :=
  calls.foldl receive backend

end Backend

inductive Event where
  | call (call : Call)
  | execution
  deriving DecidableEq, Repr, Inhabited

/-- A backend that writes down what happens to it and answers what it was told to. -/
structure Recorder where
  answer : Answer := ⟨[], 0⟩
  failure : Option String := none
  log : List Event := []
  deriving Repr, Inhabited

namespace Recorder

/-- A failing execution is recorded as well. -/
def execute (recorder : Recorder) : Recorder × Except Failure Answer :=
  ({ recorder with log := recorder.log ++ [.execution] },
    match recorder.failure with
    | some message => .error (.reported message)
    | none => .ok recorder.answer)

instance : Backend Recorder where
  receive recorder call := { recorder with log := recorder.log ++ [.call call] }
  execute := execute

end Recorder

end QueryOptions
