import QueryOptions.Number.Decimal
import QueryOptions.Number.Limit
import QueryOptions.Text.Quoted
import QueryOptions.Value.Basic

/-!
The written form of values. A text stands for itself on its own and is quoted inside lists and
records; the other scalars have one spelling everywhere. A value that contains an integer above the
limit has no text: what is written here for it is never given to anyone.
-/

namespace QueryOptions.Value

def commaSeparated (parts : List String) : String := ", ".intercalate parts

mutual

/-- A value as it is written inside another one. -/
def written : Value → String
  | .null => "None"
  | .boolean value => if value then "True" else "False"
  | .integer value => toString value
  | .real value => value.text
  | .text value => Text.quote value
  | .list items => "[" ++ commaSeparated (writtenItems items) ++ "]"
  | .record entries => "\x7b" ++ commaSeparated (writtenEntries entries) ++ "\x7d"
  | .object _ ownText _ => ownText

def writtenItems : List Value → List String
  | [] => []
  | item :: items => written item :: writtenItems items

def writtenEntries : List (String × Value) → List String
  | [] => []
  | entry :: entries => writtenEntry entry :: writtenEntries entries

def writtenEntry : String × Value → String
  | (key, value) => Text.quote key ++ ": " ++ written value

end

/-- A value on its own: a text is not quoted. -/
def plainText : Value → String
  | .text value => value
  | value => value.written

mutual

def isWritable : Value → Bool
  | .integer value => value.natAbs < Nat.pow 10 IntegerTooLong.limit
  | .list items => areWritable items
  | .record entries => entriesAreWritable entries
  | _ => true

def areWritable : List Value → Bool
  | [] => true
  | item :: items => isWritable item && areWritable items

def entriesAreWritable : List (String × Value) → Bool
  | [] => true
  | entry :: entries => entryIsWritable entry && entriesAreWritable entries

def entryIsWritable : String × Value → Bool
  | (_, value) => isWritable value

end

end QueryOptions.Value
