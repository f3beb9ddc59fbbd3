import QueryOptions.Value.Text

/-!
What strict reading refuses, by cause. Each cause has one report: the messages kept under the option
or the field that they concern.
-/

namespace QueryOptions

/-- Messages by the option or the field that they concern, in the order of their discovery. -/
abbrev Report := List (String × List String)

namespace Report

/-- A report that concerns no option in particular. -/
def ofMessage (message : String) : Report := [("__root__", [message])]

/-- A report on one line. -/
def message (report : Report) : String :=
  (Value.record (report.map fun entry => (entry.1, .list (entry.2.map .text)))).written

end Report

inductive Rejection where
  | unrecognisedClause (fragment : String)
  | invalidFieldName (name : String)
  | malformedSort (entry : String)
  | invalidRelation (name : String)
  | notFilterable (field : String)
  | notSortable (field : String)
  | notExpandable (relation : String)
  deriving DecidableEq, Repr, Inhabited

namespace Rejection

/-- Whether the text was well formed and only the field not allowed. -/
def isDenial : Rejection → Bool
  | .notFilterable _ | .notSortable _ | .notExpandable _ => true
  | _ => false

def subject : Rejection → String
  | .unrecognisedClause _ | .invalidFieldName _ => "$filter"
  | .malformedSort _ => "$orderby"
  | .invalidRelation _ => "$expand"
  | .notFilterable field | .notSortable field | .notExpandable field => field

def explanation : Rejection → String
  | .unrecognisedClause fragment => "Unrecognised filter clause: " ++ Text.quote fragment
  | .invalidFieldName name => "Invalid field name: " ++ Text.quote name
  | .malformedSort entry => "Expected '<field> ASC|DESC', got: " ++ Text.quote entry
  | .invalidRelation name => "Invalid relation name: " ++ Text.quote name
  | .notFilterable field => "Field " ++ Text.quote field ++ " is not filterable"
  | .notSortable field => "Field " ++ Text.quote field ++ " is not sortable"
  | .notExpandable relation => "Field " ++ Text.quote relation ++ " is not expandable"

def report (rejection : Rejection) : Report := [(rejection.subject, [rejection.explanation])]

end Rejection

end QueryOptions
