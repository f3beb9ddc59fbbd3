import QueryOptions.Rejection
import QueryOptions.Text.Split

/-!
The fields that a resource opens to filtering, to sorting and to expansion. The three lists are
independent of each other, and an empty list opens every field.
-/

namespace QueryOptions

abbrev AllowList := List String

namespace AllowList

def admits (fields : AllowList) (field : String) : Bool := fields.isEmpty || fields.contains field

/-- A text given for a list stands for its single characters. -/
def ofCharacters (characters : String) : AllowList := characters.toList.map fun c => String.ofList [c]

def sorted (fields : AllowList) : List String :=
  fields.eraseDups.mergeSort fun left right => left ≤ right

end AllowList

/-- Whether a field occurs in a text that stands in the place of a list; an empty text admits all. -/
def admittedByText (characters field : String) : Bool :=
  characters.isEmpty || Text.occursIn field.toList characters.toList

structure Access where
  filterable : AllowList := []
  sortable : AllowList := []
  expandable : AllowList := []
  deriving DecidableEq, Repr, Inhabited

namespace Access

def replace (access : Access) (filterable sortable expandable : Option AllowList) : Access where
  filterable := filterable.getD access.filterable
  sortable := sortable.getD access.sortable
  expandable := expandable.getD access.expandable

def allowsFilter (access : Access) (field : String) : Bool := access.filterable.admits field

def allowsSort (access : Access) (field : String) : Bool := access.sortable.admits field

def allowsExpand (access : Access) (relation : String) : Bool := access.expandable.admits relation

def requireFilter (access : Access) (field : String) : Except Rejection Unit :=
  if access.allowsFilter field then .ok () else .error (.notFilterable field)

def requireSort (access : Access) (field : String) : Except Rejection Unit :=
  if access.allowsSort field then .ok () else .error (.notSortable field)

def requireExpand (access : Access) (relation : String) : Except Rejection Unit :=
  if access.allowsExpand relation then .ok () else .error (.notExpandable relation)

end Access

end QueryOptions
