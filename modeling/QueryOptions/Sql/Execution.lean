import QueryOptions.Sql.Name
import QueryOptions.Sql.Selection

/-!
Executing a selection over a database. Roots are joined with their related rows, the conditions
keep some of the joined rows, and the orderings sort them. A root is answered once, at the place of
its first joined row, with the related rows that were kept.
-/

namespace QueryOptions.Sql

structure Source where
  tableAlias : String
  table : Table
  deriving DecidableEq, Repr, Inhabited

/-- A row of every source; a related row may be missing. -/
abbrev Joined := List (Option Row)

structure ColumnRef where
  source : Nat
  column : Nat
  kind : ColumnKind
  deriving DecidableEq, Repr, Inhabited

namespace ColumnRef

def cell (reference : ColumnRef) (joined : Joined) : Cell :=
  ((joined[reference.source]?.join).bind fun row => row[reference.column]?).getD .null

def find (sources : List Source) (admits : Source → Bool) (column : String) : List ColumnRef :=
  sources.zipIdx.flatMap fun (source, sourceIndex) =>
    if admits source then
      (source.table.columns.zipIdx.filter fun (candidate, _) => Name.same candidate.name column).map
        fun (candidate, columnIndex) => ⟨sourceIndex, columnIndex, candidate.kind⟩
    else []

/-- The column that a path names. A bare name must be the name of one column only. -/
def resolve? (sources : List Source) (path : String) : Option ColumnRef :=
  let segments := Text.splitAtChar '.' path.toList
  if !segments.all Name.isReadable then none
  else match segments.map String.ofList with
    | [column] =>
        match find sources (fun _ => true) column with
        | [reference] => some reference
        | _ => none
    | [tableAlias, column] =>
        (find sources (fun source => Name.same source.tableAlias tableAlias) column).head?
    | _ => none

def resolve (sources : List Source) (path : String) : Except Failure ColumnRef :=
  match resolve? sources path with
  | some reference => .ok reference
  | none => .error (.unknownColumn path)

end ColumnRef

/-- A condition on a column, with the operand that is bound for it. -/
structure BoundCondition where
  column : ColumnRef
  operator : Operator
  operand : Cell
  deriving DecidableEq, Repr, Inhabited

namespace BoundCondition

def holds (condition : BoundCondition) (joined : Joined) : Bool :=
  Cell.holds condition.operator condition.column.kind (condition.column.cell joined)
    condition.operand

end BoundCondition

/-- A selection whose names have been resolved and whose literals have been bound. -/
structure Plan where
  selection : Selection
  conditions : List BoundCondition
  orderings : List (ColumnRef × Direction)
  deriving Repr, Inhabited

namespace Selection

def sources (selection : Selection) : List Source :=
  ⟨selection.rootAlias, selection.entity.table⟩ ::
    selection.joins.map fun relation => ⟨relation.name, relation.target⟩

def operand (selection : Selection) (predicate : Predicate) : Cell :=
  match predicate.binding with
  | none => .null
  | some binding =>
      match selection.bindings.find? fun bound => bound.name = binding.name with
      | some bound => .ofLiteral bound.literal
      | none => .null

def oversized? (selection : Selection) : Option Int :=
  let literals := selection.bindings.filterMap fun binding =>
    match binding.literal with
    | .integer value => some value
    | _ => none
  (literals ++ selection.bounds).find? fun value => !Cell.fits value

def ambiguousAlias? (selection : Selection) : Option String :=
  (selection.joins.map (·.name)).find? (Name.same selection.rootAlias)

/-- Names are resolved before values are bound. -/
def plan (selection : Selection) : Except Failure Plan := do
  if let some name := selection.ambiguousAlias? then throw (.ambiguousAlias name)
  let conditions ← selection.predicates.mapM fun predicate => do
    let column ← ColumnRef.resolve selection.sources predicate.field
    return ⟨column, predicate.operator, selection.operand predicate⟩
  let orderings ← selection.orderings.mapM fun (field, direction) => do
    return (← ColumnRef.resolve selection.sources field, direction)
  match selection.oversized? with
  | some value => .error (.integerOutOfRange value)
  | none => return ⟨selection, conditions, orderings⟩

end Selection

namespace Relation

/-- Whether a root and a target row belong together. Nothing belongs to null. -/
def relates (relation : Relation) (rootTable : Table) (root target : Row) : Bool :=
  relation.joinedOn.all fun (own, other) =>
    let ownCell := rootTable.cell root own
    let otherCell := relation.target.cell target other
    !ownCell.isNull && !otherCell.isNull && ownCell.compare otherCell = .eq

/-- The rows related to a root, or one missing row when there are none. -/
def related (relation : Relation) (rootTable : Table) (database : Database) (root : Row) :
    List (Option Row) :=
  match (database.rows relation.target.name).filter (relation.relates rootTable root) with
  | [] => [none]
  | found => found.map some

end Relation

def compareBy : List (ColumnRef × Direction) → Joined → Joined → Ordering
  | [], _, _ => .eq
  | (column, direction) :: orderings, left, right =>
      let order := (column.cell left).compare (column.cell right)
      let directed := match direction with
        | .ascending => order
        | .descending => order.swap
      directed.then (compareBy orderings left right)

/-- The page of a list: a negative limit is none, a negative offset is zero. -/
def cut {α : Type} (limit offset : Option Int) (items : List α) : List α :=
  let rest := items.drop (offset.getD 0).toNat
  match limit with
  | some limit => if limit < 0 then rest else rest.take limit.toNat
  | none => rest

def firstByKey {α κ : Type} [DecidableEq κ] (key : α → κ) : (seen : List κ) → List α → List α
  | _, [] => []
  | seen, item :: items =>
      if seen.contains (key item) then firstByKey key seen items
      else item :: firstByKey key (key item :: seen) items

namespace Plan

def combinations (plan : Plan) (database : Database) (root : Row) : List Joined :=
  plan.selection.joins.foldl (fun joined relation =>
    let related := relation.related plan.selection.entity.table database root
    joined.flatMap fun row => related.map fun target => row ++ [target]) [[some root]]

/-- The joined rows that meet all conditions, in the order of the tables. -/
def filtered (plan : Plan) (database : Database) : List Joined :=
  ((database.rows plan.selection.entity.table.name).flatMap (plan.combinations database)).filter
    fun joined => plan.conditions.all (·.holds joined)

def rootRow (joined : Joined) : Row := (joined.head?.join).getD []

def key (plan : Plan) (joined : Joined) : List Cell :=
  plan.selection.entity.key.map (plan.selection.entity.table.cell (rootRow joined))

def sorted (plan : Plan) (rows : List Joined) : List Joined :=
  rows.mergeSort fun left right => compareBy plan.orderings left right ≠ .gt

def bounded {α : Type} (plan : Plan) (items : List α) : List α :=
  cut plan.selection.limit plan.selection.offset items

/-- The keys of the page: roots are ordered by their first joined rows. -/
def pageKeys (plan : Plan) (database : Database) : List (List Cell) :=
  (plan.bounded (plan.sorted (firstByKey plan.key [] (plan.filtered database)))).map plan.key

def pageRows (plan : Plan) (database : Database) : List Joined :=
  if plan.selection.pagesKeys then
    let keys := plan.pageKeys database
    plan.sorted ((plan.filtered database).filter fun joined => keys.contains (plan.key joined))
  else plan.bounded (plan.sorted (plan.filtered database))

/-- The number of roots that have a joined row meeting all conditions. -/
def total (plan : Plan) (database : Database) : Nat :=
  (firstByKey plan.key [] (plan.filtered database)).length

def relatedRows (index : Nat) (rows : List Joined) : List Row :=
  (rows.filterMap fun joined => joined[index]?.join).eraseDups

/-- What a root shows of a relation: the values of a collection in order, or its single value. -/
def shown (relation : Relation) (related : List Row) : Value :=
  let cells := related.map fun row => relation.target.cell row relation.shown
  if relation.isCollection then
    .list ((cells.mergeSort fun left right => left.compare right ≠ .gt).map Cell.value)
  else ((cells.head?).map Cell.value).getD .null

def entityValue (plan : Plan) (rows : List Joined) (joined : Joined) : Value :=
  let own := rows.filter fun other => plan.key other = plan.key joined
  let attributes := plan.selection.entity.attributes.map fun (shownName, column) =>
    (shownName, (plan.selection.entity.table.cell (rootRow joined) column).value)
  let relations := plan.selection.joins.zipIdx.map fun (relation, index) =>
    (relation.name, shown relation (relatedRows (index + 1) own))
  .record (attributes ++ relations)

def compareKeys : List Cell → List Cell → Ordering
  | left :: lefts, right :: rights => (left.compare right).then (compareKeys lefts rights)
  | _, _ => .eq

/-- The roots of the page at the places of their first joined rows. Without orderings they stand in
the order of their keys. -/
def roots (plan : Plan) (rows : List Joined) : List Joined :=
  let distinct := firstByKey plan.key [] rows
  if plan.orderings.isEmpty then
    distinct.mergeSort fun left right => compareKeys (plan.key left) (plan.key right) ≠ .gt
  else distinct

def answer (plan : Plan) (database : Database) : Answer :=
  let rows := plan.pageRows database
  ⟨(plan.roots rows).map (plan.entityValue rows), plan.total database⟩

end Plan

namespace Selection

def execute (selection : Selection) (database : Database) : Except Failure Answer :=
  match selection.plan with
  | .error failure => .error failure
  | .ok plan => .ok (plan.answer database)

end Selection

structure Store where
  database : Database
  selection : Selection

instance : Backend Store where
  receive store call := { store with selection := store.selection.receive call }
  execute store := (store, store.selection.execute store.database)

end QueryOptions.Sql
