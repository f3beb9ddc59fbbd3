import QueryOptions.Identifier
import QueryOptions.Operator
import QueryOptions.Text.Blank

/-!
Clauses and the forms in which they are written. Each operator has one form: a null check is a
comparison with the word `null`, a comparison is three parts separated by blanks, a pattern is a
call. A grammar is a list of operators, and the first whose form fits a fragment reads it.
-/

namespace QueryOptions

/-- One condition of a filter. The position counts the fragments of the filter text. -/
structure Clause where
  field : String
  operator : Operator
  rawValue : Option String
  position : Int := 0
  deriving DecidableEq, Repr, Inhabited

namespace Clause

/-- What a form finds in a fragment: the field and the raw value, if the form has one. -/
structure Reading where
  field : List Char
  rawValue : Option (List Char)
  deriving DecidableEq, Repr

def threeParts? (fragment : List Char) : Option (List Char × List Char × List Char) :=
  let isInk := fun c => !Text.isBlank c
  let field := fragment.takeWhile isInk
  let afterField := Text.trimLeft (fragment.dropWhile isInk)
  let keyword := afterField.takeWhile isInk
  let afterKeyword := afterField.dropWhile isInk
  let rest := Text.trimLeft afterKeyword
  if rest.isEmpty then none else some (field, keyword, rest)

def lowerAscii (text : List Char) : List Char := text.map Char.toLower

/-- The word `null`, bare or in one pair of equal quotes, in any letter case. -/
def isNullWord (text : List Char) : Bool :=
  let word := lowerAscii text
  word = "null".toList || word = "'null'".toList || word = "\"null\"".toList

/-- A null check is written as a comparison; letter case does not matter in any of its parts. -/
def readNullCheck (keyword : String) (fragment : List Char) : Option Reading := do
  let (field, written, rest) ← threeParts? fragment
  if Identifier.isPathFrom Identifier.isCaselessStart field &&
      lowerAscii written = keyword.toList && isNullWord rest then
    some ⟨field, none⟩
  else none

/-- The value of a comparison is the rest of the fragment, on one line. -/
def readComparison (keyword : String) (fragment : List Char) : Option Reading := do
  let (field, written, rest) ← threeParts? fragment
  if Identifier.isPathFrom Identifier.isStart field && written = keyword.toList &&
      !rest.contains '\n' then
    some ⟨field, some (Text.trim rest)⟩
  else none

/-- The argument between the comma and the closing parenthesis. A blank argument counts as an empty
one unless it consists of line breaks only. -/
def readArgument (argument : List Char) : Option (List Char) :=
  let value := Text.trim argument
  if argument.all (· = '\n') || value.contains '\n' then none else some value

/-- A call ends with the last parenthesis of the fragment. -/
def readCall (name : String) (fragment : List Char) : Option Reading := do
  let arguments ← Text.dropPrefix? (name.toList ++ ['(']) fragment
  if arguments.getLast? ≠ some ')' then none
  let inside := Text.trimLeft arguments.dropLast
  let isNameChar := fun c => Text.isWord c || c == '.'
  let field := inside.takeWhile isNameChar
  if !Identifier.isPathFrom Identifier.isStart field then none
  match Text.trimLeft (inside.dropWhile isNameChar) with
  | ',' :: argument =>
      let value ← readArgument argument
      some ⟨field, some value⟩
  | _ => none

end Clause

namespace Operator

def read : Operator → List Char → Option Clause.Reading
  | .isNull => Clause.readNullCheck "eq"
  | .isNotNull => Clause.readNullCheck "ne"
  | .comparison kind => Clause.readComparison kind.keyword
  | .pattern kind => Clause.readCall kind.keyword

end Operator

/-- The operators whose forms are tried, in this order. -/
abbrev Grammar := List Operator

namespace Grammar

/-- Null checks come first, so that a comparison with `null` is never read as an equality. -/
def standard : Grammar := Operator.all

def readClause (grammar : Grammar) (fragment : List Char) (position : Int) : Option Clause :=
  let trimmed := Text.trim fragment
  grammar.findSome? fun operator =>
    (operator.read trimmed).map fun reading =>
      { field := String.ofList reading.field
        operator := operator
        rawValue := reading.rawValue.map String.ofList
        position := position }

end Grammar

end QueryOptions
