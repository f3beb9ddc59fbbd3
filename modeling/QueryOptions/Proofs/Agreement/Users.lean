import QueryOptions.Proofs.Memory.Columns
import QueryOptions.Sql.Execution
import QueryOptions.Sql.Sample

/-!
Users as both backends hold them. A user is a row of cells in a table and a record of values in
memory; where a column holds one kind only, the two backends test and order it alike.
-/

namespace QueryOptions.Agreement

open QueryOptions.Sql (Cell ColumnKind)

inductive UserColumn where
  | id | name | age | email
  deriving DecidableEq, Repr

namespace UserColumn

def all : List UserColumn := [.id, .name, .age, .email]

def label : UserColumn → String
  | .id => "id"
  | .name => "name"
  | .age => "age"
  | .email => "email"

def kind : UserColumn → ColumnKind
  | .id | .age => .integer
  | .name | .email => .text

def index : UserColumn → Nat
  | .id => 0
  | .name => 1
  | .age => 2
  | .email => 3

end UserColumn

structure UserRecord where
  id : Int
  name : Option String
  age : Option Int
  email : Option String
  deriving DecidableEq, Repr

namespace UserRecord

def cell (user : UserRecord) : UserColumn → Cell
  | .id => .integer user.id
  | .name => Sql.Sample.optionalText user.name
  | .age => Sql.Sample.optionalInteger user.age
  | .email => Sql.Sample.optionalText user.email

def row (user : UserRecord) : Sql.Row := UserColumn.all.map user.cell

def value (user : UserRecord) : Value :=
  .record (UserColumn.all.map fun column => (column.label, (user.cell column).value))

end UserRecord

def IsOfKind (kind : ColumnKind) : Cell → Prop
  | .null => True
  | .integer _ => kind = .integer
  | .text _ => kind = .text
  | .real _ => False

def cellOf : Value → Cell
  | .integer value => .integer value
  | .text value => .text value
  | _ => .null

theorem cell_of_value {kind : ColumnKind} {cell : Cell} (ofKind : IsOfKind kind cell) :
    cellOf cell.value = cell := by
  cases cell with
  | real value => cases ofKind
  | _ => rfl

theorem number_of_kind {kind : ColumnKind} {cell : Cell} (ofKind : IsOfKind kind cell) :
    cell ≠ .real .nan := by
  rintro rfl
  cases ofKind

theorem scalar_of_kind {kind : ColumnKind} {cell : Cell} (ofKind : IsOfKind kind cell) :
    Memory.IsScalar cell.value := by
  cases cell with
  | real value => cases ofKind
  | _ => trivial

def familyOfKind : ColumnKind → Memory.Family
  | .integer => .number
  | .text => .text

theorem family_of_kind {kind : ColumnKind} {cell : Cell} (ofKind : IsOfKind kind cell)
    (given : cell.value ≠ .null) : Memory.familyOf cell.value = familyOfKind kind := by
  cases cell with
  | null => exact absurd rfl given
  | real value => cases ofKind
  | integer value => cases ofKind; rfl
  | text value => cases ofKind; rfl

theorem UserRecord.cell_of_kind (user : UserRecord) (column : UserColumn) :
    IsOfKind column.kind (user.cell column) := by
  obtain ⟨id, name, age, email⟩ := user
  cases column with
  | id => rfl
  | name => cases name <;> trivial
  | age => cases age <;> trivial
  | email => cases email <;> trivial

theorem integer_compare (left right : Int) :
    (Number.integer left).compare? (.integer right) =
      some ((Cell.integer left).compare (.integer right)) := rfl

theorem convert_of_kind {kind : ColumnKind} {right : Cell} (rightKind : IsOfKind kind right) :
    right.convert kind = right := by
  cases right with
  | null => cases kind <;> rfl
  | integer value => cases rightKind; rfl
  | text value => cases rightKind; rfl
  | real value => cases rightKind

section Kinds

variable {kind : ColumnKind} {left right : Cell} (leftKind : IsOfKind kind left)
  (rightKind : IsOfKind kind right)

include leftKind rightKind

theorem values_compare (leftGiven : left ≠ .null) (rightGiven : right ≠ .null) :
    left.value.equal right.value = decide (left.compare right = .eq) ∧
      left.value.order right.value = .ok (some (left.compare right)) := by
  cases left with
  | null => exact absurd rfl leftGiven
  | real value => cases leftKind
  | integer leftValue =>
      cases right with
      | null => exact absurd rfl rightGiven
      | real value => cases rightKind
      | text value => cases leftKind; cases rightKind
      | integer rightValue =>
          have compared := integer_compare leftValue rightValue
          constructor
          · simp [Cell.value, Value.equal, Value.number?, compared]
          · simp [Cell.value, Value.order, Value.number?, compared]
  | text leftValue =>
      cases right with
      | null => exact absurd rfl rightGiven
      | real value => cases rightKind
      | integer value => cases leftKind; cases rightKind
      | text rightValue =>
          constructor
          · simp only [Cell.value, Value.equal, Cell.compare, Value.compareText]
            split
            · simp_all
            · rename_i different
              split <;> simp [different]
          · simp [Cell.value, Value.order, Cell.compare]

/-- Both backends give one verdict on a cell, whatever the operator but a pattern. -/
theorem holds_agree (operator : Operator) (exact : ∀ pattern, operator ≠ .pattern pattern) :
    Memory.holds operator left.value right.value = Cell.holds operator kind left right := by
  cases operator with
  | isNull => cases left <;> rfl
  | isNotNull => cases left <;> rfl
  | pattern pattern => exact absurd rfl (exact pattern)
  | comparison comparison =>
      by_cases leftGiven : left = .null
      · subst leftGiven
        rfl
      by_cases rightGiven : right = .null
      · subst rightGiven
        cases left <;> rfl
      obtain ⟨equal, order⟩ := values_compare leftKind rightKind leftGiven rightGiven
      have leftNull : left.value.isNull = left.isNull := by cases left <;> rfl
      have rightNull : right.value.isNull = right.isNull := by cases right <;> rfl
      simp only [Memory.holds, Cell.holds, leftNull, rightNull, convert_of_kind rightKind]
      congr 1
      unfold Memory.compares
      rw [equal, order]
      cases comparison <;> simp [Comparison.holds]

theorem key_less_agree :
    Memory.keyLess left.value right.value = .ok (decide (Cell.placeOrder left right = .lt)) := by
  have less := Memory.key_less_natural (scalar_of_kind leftKind) (scalar_of_kind rightKind)
    fun leftGiven rightGiven =>
      (family_of_kind leftKind leftGiven).trans (family_of_kind rightKind rightGiven).symm
  rwa [Memory.naturalOrder, Function.onFun_apply, Memory.scalar_cell_value,
    Memory.scalar_cell_value] at less

end Kinds

section Rows

variable [Memory.Attributes]

abbrev valueOrder (path : String → String) : List (String × Direction) → Value → Value → Ordering :=
  Sql.cellOrder fun field row => cellOf (Memory.resolve row (path field))

def HoldsKind (path : String) (kind : ColumnKind) (row : Value) : Prop :=
  ∃ cell, IsOfKind kind cell ∧ Memory.resolve row path = cell.value

theorem sort_rows_stable {path : String} {kind : ColumnKind} (direction : Direction)
    (rows : List Value) (holds : ∀ row ∈ rows, HoldsKind path kind row) :
    ∃ sorted, Memory.sortRows (fun row => Memory.resolve row path) direction rows = .ok sorted ∧
      IsStableSort
        (direction.directed
          (Function.onFun Cell.placeOrder fun row => cellOf (Memory.resolve row path)))
        rows sorted := by
  have decides : Memory.Decides
      (fun left right => Memory.keyLess (Memory.resolve left path) (Memory.resolve right path))
      (Function.onFun Cell.placeOrder fun row => cellOf (Memory.resolve row path))
      (HoldsKind path kind) := by
    rintro left right ⟨leftCell, leftKind, leftFound⟩ ⟨rightCell, rightKind, rightFound⟩
    change Memory.keyLess (Memory.resolve left path) (Memory.resolve right path) =
      .ok (decide (Cell.placeOrder (cellOf (Memory.resolve left path))
        (cellOf (Memory.resolve right path)) = .lt))
    rw [leftFound, rightFound, cell_of_value leftKind, cell_of_value rightKind]
    exact key_less_agree leftKind rightKind
  obtain ⟨sorted, found, sort⟩ := Memory.sort_directed_stable decides direction rows holds
  refine ⟨sorted, ?_, sort⟩
  rw [Memory.sortRows, found]

theorem passes_stable (path : String → String) (orderings : List (String × Direction))
    (rows : List Value)
    (holds : ∀ ordering ∈ orderings, ∃ kind, ∀ row ∈ rows, HoldsKind (path ordering.1) kind row) :
    ∃ sorted,
      orderings.reverse.foldlM (fun rows ordering =>
          Memory.sortRows (fun row => Memory.resolve row (path ordering.1)) ordering.2 rows)
        rows = .ok sorted ∧
      IsStableSort (valueOrder path orderings) rows sorted := by
  rw [valueOrder, Sql.cell_order_eq_lex_order]
  refine Memory.passes_stable orderings rows ?_
  intro ordering member arrangement perm
  obtain ⟨kind, holdsHere⟩ := holds ordering member
  exact sort_rows_stable ordering.2 arrangement fun row known =>
    holdsHere row (perm.mem_iff.mp known)

end Rows

end QueryOptions.Agreement
