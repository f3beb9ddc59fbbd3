import QueryOptions.AllowList
import QueryOptions.Identifier
import QueryOptions.Operator
import QueryOptions.Strictness
import QueryOptions.Text.Blank

/-!
Sort lists: entries separated by commas, each a field and a direction. The direction is always
written out, in any letter case.
-/

namespace QueryOptions

structure SortKey where
  field : String
  direction : Direction
  deriving DecidableEq, Repr, Inhabited

namespace SortKey

/-- The upper-case form of a letter that can occur in a direction. The long s has the capital S as
its upper case. -/
def upperLetter (c : Char) : Char := if c = '\u017f' then 'S' else c.toUpper

def ofWords? : List (List Char) → Option SortKey
  | [field, direction] =>
      if Identifier.isPath (String.ofList field) then
        (Direction.ofKeyword? (String.ofList (direction.map upperLetter))).map fun direction =>
          ⟨String.ofList field, direction⟩
      else none
  | _ => none

def readEntry (access : Access) (entry : List Char) : Except Rejection SortKey :=
  match ofWords? (Text.words entry) with
  | none => .error (.malformedSort (String.ofList (Text.trim entry)))
  | some sort => do
      access.requireSort sort.field
      return sort

def readEntries (access : Access) (strictness : Strictness) :
    List (List Char) → Except Rejection (List SortKey)
  | [] => .ok []
  | entry :: entries =>
      if entry.all Text.isBlank then readEntries access strictness entries
      else do
        let sort ← strictness.settle (readEntry access entry)
        let sorts ← readEntries access strictness entries
        return sort.toList ++ sorts

def read (access : Access) (strictness : Strictness) : Value → Except Rejection (List SortKey)
  | .text text =>
      if text.isEmpty then .ok []
      else readEntries access strictness (Text.splitAtChar ',' text.toList)
  | _ => .ok []

end SortKey

end QueryOptions
