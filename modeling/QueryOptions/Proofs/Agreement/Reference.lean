import QueryOptions.Proofs.Agreement.Clauses
import QueryOptions.Proofs.Sql.Paging

/-!
What a query on users means, apart from any backend. The users that meet all conditions are sorted
and cut to the page; each backend is shown to answer this.
-/

namespace QueryOptions.Agreement

open QueryOptions.Sql (Cell)

namespace Condition

def operandCell (condition : Condition) : Cell :=
  match condition.operand with
  | some literal => .ofLiteral literal
  | none => .null

def holds (condition : Condition) (user : UserRecord) : Bool :=
  Cell.holds condition.operator condition.column.kind (user.cell condition.column)
    condition.operandCell

theorem operand_of_literal {condition : Condition} {literal : Literal}
    (found : condition.operand = some literal) : literal = condition.literal := by
  unfold operand at found
  split at found
  · exact (Option.some.inj found).symm
  · cases found

theorem operand_cell_of_kind (condition : Condition) :
    IsOfKind condition.column.kind condition.operandCell := by
  unfold operandCell
  split
  · rename_i literal found
    rw [operand_of_literal found]
    exact condition.writes.cell_of_kind
  · trivial

theorem literal_cell_value (condition : Condition) :
    (Cell.ofLiteral condition.literal).value = condition.literal.value := by
  obtain ⟨column, comparison, raw, literal, writes⟩ := condition
  cases writes <;> rfl

end Condition

abbrev userOrder : List (UserColumn × Direction) → UserRecord → UserRecord → Ordering :=
  Sql.cellOrder fun column user => user.cell column

/-- What is asked of users: the conditions that count, the sorts and the page. -/
structure Query where
  conditions : List Condition
  sorts : List (UserColumn × Direction)
  page : Page

def queryOf (numbered : List (Condition × Nat)) (sorts : List (UserColumn × Direction))
    (page : Page) : Query :=
  ⟨numbered.map Prod.fst, sorts, page⟩

namespace Query

variable (query : Query) (users : List UserRecord)

def keeps (user : UserRecord) : Bool := query.conditions.all (·.holds user)

def kept : List UserRecord :=
  (users.filter query.keeps).mergeSort fun left right => userOrder query.sorts left right ≠ .gt

def answer : Answer :=
  ⟨(query.page.slice (query.kept users)).map UserRecord.value, (query.kept users).length⟩

theorem kept_of_sorted :
    query.kept users =
      (users.mergeSort fun left right => userOrder query.sorts left right ≠ .gt).filter
        query.keeps := by
  have sorted := (IsStableSort.merge_sort (userOrder query.sorts) users).filter query.keeps
  exact sorted.eq_merge_sort.symm

end Query

/-- Options of a lenient request that ask for users: conditions, sorts with the key among them and
bounds of 64 bits, but no related rows. -/
structure Asks (access : Access) (settings : Settings) (options : List (String × Value))
    (conditions : List Condition) (sorts : List (UserColumn × Direction)) : Prop where
  lenient : settings.strictness = .lenient
  ofRoot : settings.rootAlias = "entity"
  filter : AsksFor conditions (Page.optionValue options settings.filterKey)
  orderby : SortKey.read access .lenient (Page.optionValue options settings.orderbyKey) =
    .ok (sortKeysOf sorts)
  byId : ∃ direction, (UserColumn.id, direction) ∈ sorts
  expand : Page.optionValue options settings.expandKey = .null
  limitFits : (Page.ofSettings options settings).limit < Number.wordBound
  skipFits : (Page.ofSettings options settings).skip < Number.wordBound

namespace Asks

variable {access : Access} {settings : Settings} {options : List (String × Value)}
  {conditions : List Condition} {sorts : List (UserColumn × Direction)}
  (asks : Asks access settings options conditions sorts)

include asks

theorem read_predicates :
    Request.readPredicates { options := options, access := access, settings := settings } =
      .ok (predicatesOf "entity" (admitted access conditions.zipIdx)) := by
  rw [read_predicates_written asks.lenient asks.filter]
  simp only [asks.ofRoot]

theorem read_sorts :
    Request.readSorts { options := options, access := access, settings := settings } =
      .ok (sortKeysOf sorts) := by
  have read := asks.orderby
  rw [← asks.lenient] at read
  exact congrArg (Except.mapError Failure.rejected) read

theorem read_expansions :
    Request.readExpansions { options := options, access := access, settings := settings } =
      .ok [] := by
  change (Expansion.read access settings.strictness
    (Page.optionValue options settings.expandKey)).mapError Failure.rejected = _
  rw [asks.expand]
  rfl

end Asks

end QueryOptions.Agreement
