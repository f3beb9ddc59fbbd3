import QueryOptions.Number.Decimal
import QueryOptions.Number.Limit
import QueryOptions.Text.Digit
import QueryOptions.Value.Basic

/-!
Literals of filter clauses: the typed value that a raw text stands for. The first rule that fits
decides: quotes make a text, `true`, `false` and `null` are names, digits with at most one point are
a number, and everything else is a text as it stands. Integers are bounded in length.
-/

namespace QueryOptions

inductive Literal where
  | text (value : String)
  | integer (value : Int)
  | real (value : Binary64)
  | boolean (value : Bool)
  | null
  deriving DecidableEq, Repr, Inhabited

namespace Literal

def unquoted? (raw : List Char) : Option (List Char) :=
  match raw with
  | opening :: rest =>
      if (opening = '\'' || opening = '"') && rest.getLast? = some opening then some rest.dropLast
      else none
  | [] => none

/-- A text that consists of digits, or of digits with one point among or beside them, after an
optional minus sign. -/
structure PlainNumeral where
  negative : Bool
  whole : List Char
  fraction : Option (List Char)
  deriving DecidableEq, Repr

/-- A point needs a digit on at least one side, and nothing may follow the digits. -/
def PlainNumeral.read? (raw : List Char) : Option PlainNumeral :=
  let (negative, body) := match raw with
    | '-' :: rest => (true, rest)
    | _ => (false, raw)
  let whole := body.takeWhile Text.isDigit
  match body.dropWhile Text.isDigit with
  | [] => if whole.isEmpty then none else some ⟨negative, whole, none⟩
  | '.' :: fraction =>
      if fraction.all Text.isDigit && !(whole.isEmpty && fraction.isEmpty) then
        some ⟨negative, whole, some fraction⟩
      else none
  | _ => none

def PlainNumeral.value (numeral : PlainNumeral) : Except IntegerTooLong Literal :=
  match numeral.fraction with
  | none =>
      if IntegerTooLong.limit < numeral.whole.length then .error ⟨numeral.whole.length⟩
      else
        let magnitude : Int := Text.digitsValue numeral.whole
        .ok (.integer (if numeral.negative then -magnitude else magnitude))
  | some fraction =>
      .ok (.real (Binary64.ofDecimal numeral.negative
        (Text.digitsValue (numeral.whole ++ fraction)) (-fraction.length)))

def ofRaw (raw : String) : Except IntegerTooLong Literal :=
  match unquoted? raw.toList with
  | some inner => .ok (.text (String.ofList inner))
  | none =>
      if raw = "true" then .ok (.boolean true)
      else if raw = "false" then .ok (.boolean false)
      else if raw = "null" then .ok .null
      else match PlainNumeral.read? raw.toList with
        | some numeral => numeral.value
        | none => .ok (.text raw)

def kindName : Literal → String
  | .text _ => "string"
  | .integer _ | .real _ => "number"
  | .boolean _ => "boolean"
  | .null => "null"

/-- The spelling of a literal inside a pattern. -/
def asText : Literal → String
  | .text value => value
  | .integer value => toString value
  | .real value => value.text
  | .boolean value => if value then "true" else "false"
  | .null => "null"

def value : Literal → Value
  | .text value => .text value
  | .integer value => .integer value
  | .real value => .real value
  | .boolean value => .boolean value
  | .null => .null

end Literal

end QueryOptions
