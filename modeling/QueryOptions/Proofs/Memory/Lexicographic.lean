import QueryOptions.Proofs.Memory.Columns
import QueryOptions.Proofs.Memory.Received

/-!
Ordering by several fields. The rows of a collection come in the lexicographic order of the fields,
and rows that agree under all of them keep their sequence. Each field has the order of its column,
which is a matter of the matching rows alone: how they stand and what the other fields are makes no
difference.
-/

namespace QueryOptions.Memory.Collection

section Orders

variable [Attributes]

def keyOf (collection : Collection) (field : String) (row : Value) : Value :=
  resolve row (collection.localPath field)

def rowOrder (collection : Collection) : List (String × Direction) → Value → Value → Ordering :=
  lexOrder fun field =>
    Function.onFun (columnOrder (collection.matching.map (collection.keyOf field)))
      (collection.keyOf field)

instance (collection : Collection) (orderings : List (String × Direction)) :
    Std.TransCmp (collection.rowOrder orderings) := by
  unfold rowOrder
  infer_instance

theorem ordered_stable (collection : Collection)
    (scalar : ∀ ordering ∈ collection.orderings, ∀ row ∈ collection.matching,
      IsScalar (collection.keyOf ordering.1 row)) :
    ∃ sorted, collection.ordered = .ok sorted ∧
      IsStableSort (collection.rowOrder collection.orderings) collection.matching sorted := by
  refine passes_stable collection.orderings collection.matching ?_
  intro ordering member arrangement perm
  obtain ⟨sorted, found, sort⟩ := sort_rows_stable
    (fun row known => scalar ordering member row (perm.mem_iff.mp known)) ordering.2
  rw [column_order_of_perm (perm.map _)] at sort
  exact ⟨sorted, found, sort⟩

omit [Attributes] in
theorem bounded_without_bounds {collection : Collection} (unlimited : collection.limit = none)
    (unskipped : collection.offset = none) (rows : List Value) :
    collection.bounded rows = rows := by
  have whole : collection.bounded rows = Page.slice ⟨0, 0⟩ rows :=
    bounded_eq_slice (Int.le_refl 0) (Int.le_refl 0) unlimited unskipped rows
  exact whole

/-- Orderings that are added to a collection sort its matching rows lexicographically, in the order
in which they were added, and stably. There is just one such arrangement of the rows. A field is
sorted by kinds first exactly when its column is mixed, for the natural order then fails, whatever
arrangement of the rows the other fields have left. -/
theorem orders_lexicographically (collection : Collection) (fresh : collection.orderings = [])
    (unlimited : collection.limit = none) (unskipped : collection.offset = none)
    (orderings : List (String × Direction))
    (scalar : ∀ ordering ∈ orderings, ∀ row ∈ collection.matching,
      IsScalar (collection.keyOf ordering.1 row)) :
    ∃ sorted,
      (Backend.receiveAll collection (orderings.map fun ordering =>
        .addOrdering ordering.1 ordering.2)).execute =
          (if collection.isTestable then .ok ⟨sorted, collection.matching.length⟩
          else .error (.unwritable {})) ∧
      sorted.Perm collection.matching ∧
      IsStableSort (collection.rowOrder orderings) collection.matching sorted ∧
      (∀ other, IsStableSort (collection.rowOrder orderings) collection.matching other →
        other = sorted) ∧
      ∀ ordering ∈ orderings, ∀ arrangement : List Value,
        arrangement.Perm collection.matching →
        ((∃ failure, sortDirected (fun left right =>
            keyLess (collection.keyOf ordering.1 left) (collection.keyOf ordering.1 right))
              ordering.2 arrangement = .error failure) ↔
          IsMixed (collection.matching.map (collection.keyOf ordering.1))) := by
  have received : Backend.receiveAll collection (orderings.map fun ordering =>
      .addOrdering ordering.1 ordering.2) = { collection with orderings := orderings } := by
    have whole := receive_orderings collection orderings
    rwa [fresh, List.nil_append] at whole
  obtain ⟨sorted, found, sort⟩ : ∃ sorted,
      ordered { collection with orderings := orderings } = .ok sorted ∧
        IsStableSort (collection.rowOrder orderings) collection.matching sorted :=
    ordered_stable { collection with orderings := orderings } scalar
  refine ⟨sorted, ?_, sort.perm, sort, fun other otherSort => otherSort.unique sort, ?_⟩
  · have whole : bounded { collection with orderings := orderings } sorted = sorted :=
      bounded_without_bounds unlimited unskipped sorted
    rw [received, execute, found]
    dsimp only
    rw [whole]
    rfl
  · intro ordering member arrangement perm
    rw [← is_mixed_of_perm (perm.map (collection.keyOf ordering.1))]
    exact natural_sort_fails_iff
      (fun row known => scalar ordering member row (perm.mem_iff.mp known)) ordering.2

end Orders

attribute [local instance] Attributes.bare in
/-- Tags of three kinds, the greatest kind first, and two rows that agree in everything but their
names. -/
theorem orders_mixed_tags :
    let row (name : String) (tag : Value) (rank : Int) : Value :=
      .record [("name", .text name), ("tag", tag), ("rank", .integer rank)]
    let collection : Collection := { rows := [row "a" (.integer 3) 2, row "b" (.text "x") 1,
      row "c" .null 1, row "d" (.boolean true) 5, row "e" (.integer 3) 1, row "f" (.integer 3) 2] }
    let orderings := [("entity.tag", Direction.descending), ("entity.rank", .ascending)]
    IsMixed (collection.matching.map (collection.keyOf "entity.tag")) ∧
      ∃ sorted,
        (Backend.receiveAll collection (orderings.map fun ordering =>
          .addOrdering ordering.1 ordering.2)).execute = .ok ⟨sorted, 6⟩ ∧
        IsStableSort (collection.rowOrder orderings) collection.matching sorted ∧
        sorted.map (fun row => (resolve row "name").plainText) = ["b", "e", "a", "f", "d", "c"] ∧
        ∃ failure, sortDirected (fun left right =>
          keyLess (collection.keyOf "entity.tag" left) (collection.keyOf "entity.tag" right))
            .descending collection.matching = .error failure := by
  intro row collection orderings
  have mixed : IsMixed (collection.matching.map (collection.keyOf "entity.tag")) := by
    decide +kernel
  have scalar : ∀ ordering ∈ orderings, ∀ row ∈ collection.matching,
      IsScalar (collection.keyOf ordering.1 row) := by
    decide +kernel
  have names : (Backend.receiveAll collection (orderings.map fun ordering =>
      .addOrdering ordering.1 ordering.2)).execute.toOption.map (fun answer =>
        answer.rows.map fun row => (resolve row "name").plainText) =
          some ["b", "e", "a", "f", "d", "c"] := by
    decide +kernel
  have testable : collection.isTestable = true := by decide +kernel
  obtain ⟨sorted, executed, _, sort, _, fails⟩ :=
    orders_lexicographically collection rfl rfl rfl orderings scalar
  rw [if_pos testable] at executed
  rw [executed] at names
  exact ⟨mixed, sorted, executed, sort, Option.some.inj names,
    (fails _ List.mem_cons_self _ (List.Perm.refl _)).mpr mixed⟩

end QueryOptions.Memory.Collection
