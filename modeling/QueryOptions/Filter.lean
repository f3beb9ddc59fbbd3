import QueryOptions.Clause
import QueryOptions.Strictness
import QueryOptions.Value.Basic

/-!
Filter texts: fragments joined by ` and `. Each fragment is read on its own, so a separator inside a
quoted literal separates as well. Positions count all fragments, also those that give no clause.
-/

namespace QueryOptions.Filter

def fragments (text : String) : List String :=
  (Text.splitAtText ' ' "and ".toList text.toList).map String.ofList

def readFragment (grammar : Grammar) (fragment : String) (position : Int) :
    Except Rejection Clause :=
  match grammar.readClause fragment.toList position with
  | some clause => .ok clause
  | none => .error (.unrecognisedClause (String.ofList (Text.trim fragment.toList)))

def readFragments (grammar : Grammar) (strictness : Strictness) :
    Int → List String → Except Rejection (List Clause)
  | _, [] => .ok []
  | position, fragment :: rest => do
      let clause ← strictness.settle (readFragment grammar fragment position)
      let clauses ← readFragments grammar strictness (position + 1) rest
      return clause.toList ++ clauses

/-- The clauses of a filter option. Anything but a text that is not empty has none. -/
def read (grammar : Grammar) (strictness : Strictness) : Value → Except Rejection (List Clause)
  | .text text =>
      if text.isEmpty then .ok [] else readFragments grammar strictness 0 (fragments text)
  | _ => .ok []

end QueryOptions.Filter
