import QueryOptions.Number.Basic

/-!
Values as requests and rows carry them: untyped trees of scalars, lists, records (looked up by key)
and objects (looked up by attribute). Records keep the order in which their keys were given. Of an
object's class only its name and the text that it gives its objects are known.
-/

namespace QueryOptions

inductive Value where
  | null
  | boolean (value : Bool)
  | integer (value : Int)
  | real (value : Binary64)
  | text (value : String)
  | list (items : List Value)
  | record (entries : List (String × Value))
  | object (className ownText : String) (attributes : List (String × Value))
  deriving Inhabited, Repr

namespace Value

/-- Booleans count as the numbers zero and one. -/
def number? : Value → Option Number
  | .boolean value => some (.integer (if value then 1 else 0))
  | .integer value => some (.integer value)
  | .real value => some (.real value)
  | _ => none

def isNull : Value → Bool
  | .null => true
  | _ => false

/-- Whether a value counts as given: null, false, zero and everything empty do not. -/
def isTruthy : Value → Bool
  | .null => false
  | .boolean value => value
  | .integer value => value ≠ 0
  | .real value => !value.isZero
  | .text value => !value.isEmpty
  | .list items => !items.isEmpty
  | .record entries => !entries.isEmpty
  | .object .. => true

/-- The name of a value's kind, as messages write it. Columns that mix kinds are grouped in the
order of these names. -/
def kindName : Value → String
  | .null => "NoneType"
  | .boolean _ => "bool"
  | .integer _ => "int"
  | .real _ => "float"
  | .text _ => "str"
  | .list _ => "list"
  | .record _ => "dict"
  | .object className _ _ => className

def lookup (key : String) (entries : List (String × Value)) : Option Value :=
  (entries.find? fun entry => entry.1 = key).map Prod.snd

end Value

end QueryOptions
