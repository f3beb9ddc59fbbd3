import QueryOptions.AllowList
import QueryOptions.Identifier
import QueryOptions.Strictness
import QueryOptions.Text.Blank

/-!
Expansion lists: names of relations separated by commas. The order of first appearance is kept, and
a relation that has been accepted once is skipped from then on, before any check.
-/

namespace QueryOptions.Expansion

/-- A relation is a name of one segment that is open to expansion. -/
def readRelation (access : Access) (relation : String) : Except Rejection String :=
  if Identifier.isSimple relation then do
    access.requireExpand relation
    return relation
  else .error (.invalidRelation relation)

def readEntries (access : Access) (strictness : Strictness) :
    (accepted : List String) → List (List Char) → Except Rejection (List String)
  | accepted, [] => .ok accepted
  | accepted, entry :: entries =>
      let relation := String.ofList (Text.trim entry)
      if relation.isEmpty || accepted.contains relation then
        readEntries access strictness accepted entries
      else do
        let found ← strictness.settle (readRelation access relation)
        readEntries access strictness (accepted ++ found.toList) entries

def read (access : Access) (strictness : Strictness) : Value → Except Rejection (List String)
  | .text text =>
      if text.isEmpty then .ok []
      else readEntries access strictness [] (Text.splitAtChar ',' text.toList)
  | _ => .ok []

end QueryOptions.Expansion
