import QueryOptions.Sql.Name
import QueryOptions.Sql.Selection

/-!
The statements of a selection: one for the rows and one for the number of roots. Literals and bounds
are placeholders in the text, and their values are kept beside it, so the text depends on the
structure of the request alone.
-/

namespace QueryOptions.Sql

structure Statement where
  text : String
  parameters : List (String × Value)
  deriving Repr, Inhabited

namespace Selection

def composedAlias (selection : Selection) : String := Name.composed selection.rootAlias

def rootColumn (selection : Selection) (column : String) : String :=
  selection.composedAlias ++ "." ++ column

/-- A column of the result under its table alias, with the label that tells it from columns of the
same name before it. -/
def labelled : (seen : List String) → List (String × String) → List String
  | _, [] => []
  | seen, (tableAlias, column) :: columns =>
      let repeats := seen.count column
      let label := if repeats = 0 then "" else " AS " ++ column ++ "_" ++ toString repeats
      (tableAlias ++ "." ++ column ++ label) :: labelled (seen ++ [column]) columns

/-- The columns of joined relations come first, in the entity's own order. -/
def resultColumns (selection : Selection) : List String :=
  let joined := selection.entity.relations.filter selection.joins.contains
  let related := joined.flatMap fun relation =>
    relation.target.columns.map fun column => (relation.name, column.name)
  let own := selection.entity.table.columns.map fun column =>
    (selection.composedAlias, column.name)
  labelled [] (related ++ own)

def joinText (selection : Selection) (relation : Relation) : String :=
  let conditions := relation.joinedOn.map fun (own, other) =>
    selection.rootColumn own ++ " = " ++ relation.name ++ "." ++ other
  " LEFT OUTER JOIN " ++ relation.target.name ++ " AS " ++ relation.name ++ " ON " ++
    " AND ".intercalate conditions

def fromText (selection : Selection) : String :=
  " \nFROM " ++ selection.entity.table.name ++ " AS " ++ selection.composedAlias ++
    String.join (selection.joins.map selection.joinText)

def whereText (conditions : List String) : String :=
  if conditions.isEmpty then "" else " \nWHERE " ++ " AND ".intercalate conditions

def conditionTexts (selection : Selection) : List String :=
  selection.predicates.map (·.template)

def orderText (selection : Selection) : String :=
  if selection.orderings.isEmpty then ""
  else " ORDER BY " ++ ", ".intercalate (selection.orderings.map fun (field, direction) =>
    field ++ " " ++ direction.keyword)

/-- An offset without a limit needs a limit that is none. -/
def boundText (selection : Selection) : String :=
  match selection.limit, selection.offset with
  | none, none => ""
  | some _, none => "\n LIMIT :param_1"
  | some _, some _ => "\n LIMIT :param_1 OFFSET :param_2"
  | none, some _ => "\n LIMIT -1 OFFSET :param_1"

def keyColumns (selection : Selection) : List String :=
  selection.entity.key.map selection.rootColumn

def pageCondition (selection : Selection) : String :=
  let columns := ", ".intercalate selection.keyColumns
  let subject := if selection.keyColumns.length = 1 then columns else "(" ++ columns ++ ")"
  subject ++ " IN (SELECT " ++ columns ++ selection.fromText ++
    whereText selection.conditionTexts ++ " GROUP BY " ++ columns ++ selection.orderText ++
    selection.boundText ++ ")"

def rowsText (selection : Selection) : String :=
  let start := "SELECT " ++ ", ".intercalate selection.resultColumns ++ selection.fromText
  if selection.pagesKeys then
    start ++ whereText (selection.conditionTexts ++ [selection.pageCondition]) ++
      selection.orderText
  else start ++ whereText selection.conditionTexts ++ selection.orderText ++ selection.boundText

def countText (selection : Selection) : String :=
  let columns := ", ".intercalate (selection.entity.key.map fun column =>
    selection.rootColumn column ++ " AS " ++ column)
  "SELECT count(*) AS count_1 \nFROM (SELECT DISTINCT " ++ columns ++ selection.fromText ++
    whereText selection.conditionTexts ++ ") AS anon_1"

def literalParameters (selection : Selection) : List (String × Value) :=
  selection.bindings.map fun binding => (binding.name, binding.literal.value)

def boundParameters (selection : Selection) : List (String × Value) :=
  selection.bounds.zipIdx.map fun (bound, index) =>
    ("param_" ++ toString (index + 1), .integer bound)

def rowsStatement (selection : Selection) : Statement where
  text := selection.rowsText
  parameters := selection.literalParameters ++ selection.boundParameters

def countStatement (selection : Selection) : Statement where
  text := selection.countText
  parameters := selection.literalParameters

end Selection

end QueryOptions.Sql
