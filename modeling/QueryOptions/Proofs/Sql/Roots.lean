import QueryOptions.Proofs.Order.StableSort
import QueryOptions.Proofs.Sql.CellOrder
import QueryOptions.Proofs.Sql.Distinct

/-!
What an execution loads, root by root. Joined rows stand in blocks, one block for each root, and
every stage of an execution treats a block as a whole: the answer is the page of the sorted roots
that keep a joined row, each with its whole block.
-/

namespace QueryOptions

namespace Sql

/-- What a database promises about the rows of an entity: keys tell them apart, no cell is a number
that is no number, and a relation that is no collection has at most one related row. -/
structure Database.Sound (database : Database) (entity : Entity) : Prop where
  keyed : entity.key ≠ []
  distinct : (database.rows entity.table.name).Pairwise fun left right =>
    ∃ column ∈ entity.key,
      (entity.table.cell left column).compare (entity.table.cell right column) ≠ .eq
  numbers : ∀ row ∈ database.rows entity.table.name, .real .nan ∉ row
  single : ∀ relation ∈ entity.relations, relation.isCollection = false →
    ∀ root ∈ database.rows entity.table.name,
      ((database.rows relation.target.name).filter
        (relation.relates entity.table root)).length ≤ 1

namespace Entity

def rowKey (entity : Entity) (row : Row) : List Cell := entity.key.map (entity.table.cell row)

theorem cell_is_number {entity : Entity} {row : Row} (numbers : .real .nan ∉ row)
    (column : String) : entity.table.cell row column ≠ .real .nan := by
  unfold Table.cell
  cases found : entity.table.columnIndex? column with
  | none => simp
  | some index =>
      cases cell : row[index]? with
      | none => simp [cell]
      | some value =>
          simp only [Option.bind_some, cell, Option.getD_some]
          rintro rfl
          exact numbers (List.mem_of_getElem? cell)

theorem row_keys_distinct {entity : Entity} {database : Database}
    (sound : database.Sound entity) :
    ((database.rows entity.table.name).map entity.rowKey).Nodup := by
  rw [List.Nodup, List.pairwise_map]
  apply sound.distinct.imp_of_mem
  intro left right leftMember _ apart same
  obtain ⟨column, member, different⟩ := apart
  apply different
  have cells : entity.table.cell left column = entity.table.cell right column :=
    List.map_inj_left.mp same column member
  rw [← cells, Cell.compare_eq_place_order (cell_is_number (sound.numbers left leftMember) column)
    (cell_is_number (sound.numbers left leftMember) column)]
  exact Std.ReflCmp.compare_self

end Entity

namespace ColumnRef

def rootCell (reference : ColumnRef) (row : Row) : Cell := (row[reference.column]?).getD .null

theorem root_cell_is_number {row : Row} (numbers : .real .nan ∉ row) (reference : ColumnRef) :
    reference.rootCell row ≠ .real .nan := by
  unfold rootCell
  cases cell : row[reference.column]? with
  | none => simp
  | some value =>
      simp only [Option.getD_some]
      rintro rfl
      exact numbers (List.mem_of_getElem? cell)

theorem cell_of_root {reference : ColumnRef} {joined : Joined} {row : Row}
    (ofRoot : reference.source = 0) (starts : joined.head? = some (some row)) :
    reference.cell joined = reference.rootCell row := by
  have first : joined[0]? = some (some row) := by rw [← List.head?_eq_getElem?, starts]
  unfold cell rootCell
  rw [ofRoot, first]
  rfl

end ColumnRef

abbrev rowOrder : List (ColumnRef × Direction) → Row → Row → Ordering :=
  cellOrder ColumnRef.rootCell

theorem compare_by_eq_row_order {orderings : List (ColumnRef × Direction)} {left right : Joined}
    {leftRow rightRow : Row} (ofRoots : ∀ ordering ∈ orderings, ordering.1.source = 0)
    (leftStarts : left.head? = some (some leftRow))
    (rightStarts : right.head? = some (some rightRow))
    (leftNumbers : .real .nan ∉ leftRow) (rightNumbers : .real .nan ∉ rightRow) :
    compareBy orderings left right = rowOrder orderings leftRow rightRow := by
  induction orderings with
  | nil => rfl
  | cons ordering orderings induction =>
      obtain ⟨column, direction⟩ := ordering
      have ofRoot : column.source = 0 := ofRoots (column, direction) List.mem_cons_self
      unfold compareBy rowOrder cellOrder
      rw [induction fun other member => ofRoots other (List.mem_cons_of_mem _ member),
        ColumnRef.cell_of_root ofRoot leftStarts, ColumnRef.cell_of_root ofRoot rightStarts,
        Cell.compare_eq_place_order (ColumnRef.root_cell_is_number leftNumbers column)
          (ColumnRef.root_cell_is_number rightNumbers column)]
      cases direction with
      | ascending => rfl
      | descending =>
          have swapped : Cell.placeOrder (column.rootCell rightRow) (column.rootCell leftRow) =
              (Cell.placeOrder (column.rootCell leftRow) (column.rootCell rightRow)).swap :=
            Std.OrientedCmp.eq_swap
          dsimp only
          rw [← swapped]
          rfl

namespace Plan

/-- The joined rows of a root that meet all conditions. -/
def block (plan : Plan) (database : Database) (row : Row) : List Joined :=
  (plan.combinations database row).filter fun joined => plan.conditions.all (·.holds joined)

/-- The orderings stand on columns of the root and decide about the whole key. -/
structure SortsRoots (plan : Plan) : Prop where
  ofRoots : ∀ ordering ∈ plan.orderings, ordering.1.source = 0
  wholeKey : ∀ name ∈ plan.selection.entity.key, ∃ ordering ∈ plan.orderings,
    plan.selection.entity.table.columnIndex? name = some ordering.1.column

def rows (plan : Plan) (database : Database) : List Row :=
  database.rows plan.selection.entity.table.name

def sortedRows (plan : Plan) (database : Database) : List Row :=
  (plan.rows database).mergeSort fun left right => rowOrder plan.orderings left right ≠ .gt

def keptRows (plan : Plan) (database : Database) : List Row :=
  (plan.sortedRows database).filter fun row => !(plan.block database row).isEmpty

/-- The roots of the page in order, each with the joined rows that it carries. -/
def loaded (plan : Plan) (database : Database) : List (Row × List Joined) :=
  let rows := plan.pageRows database
  (plan.roots rows).map fun joined =>
    (rootRow joined, rows.filter fun other => plan.key other = plan.key joined)

def present (plan : Plan) (root : Row × List Joined) : Value :=
  let attributes := plan.selection.entity.attributes.map fun (shownName, column) =>
    (shownName, (plan.selection.entity.table.cell root.1 column).value)
  let relations := plan.selection.joins.zipIdx.map fun (relation, index) =>
    (relation.name, shown relation (relatedRows (index + 1) root.2))
  .record (attributes ++ relations)

variable {plan : Plan} {database : Database}

theorem answer_eq :
    plan.answer database = ⟨(plan.loaded database).map plan.present, plan.total database⟩ := by
  rw [loaded, List.map_map]
  rfl

theorem combinations_start {row : Row} {joined : Joined}
    (member : joined ∈ plan.combinations database row) : joined.head? = some (some row) := by
  have all : ∀ joined ∈ plan.combinations database row, joined.head? = some (some row) := by
    unfold combinations
    refine List.foldlRecOn plan.selection.joins _
      (motive := fun built : List Joined => ∀ joined ∈ built, joined.head? = some (some row)) ?_ ?_
    · intro joined only
      rw [List.mem_singleton.mp only]
      rfl
    · intro built starts relation _ joined extended
      obtain ⟨shorter, shorterMember, added⟩ := List.mem_flatMap.mp extended
      obtain ⟨target, _, rfl⟩ := List.mem_map.mp added
      rw [List.head?_append, starts shorter shorterMember]
      rfl
  exact all joined member

theorem related_length {relation : Relation} {table : Table} {row : Row}
    (single : ((database.rows relation.target.name).filter
      (relation.relates table row)).length ≤ 1) :
    (relation.related table database row).length ≤ 1 := by
  unfold Relation.related
  split
  · exact Nat.le_refl 1
  · rwa [List.length_map]

theorem combinations_length {row : Row}
    (single : ∀ relation ∈ plan.selection.joins,
      ((database.rows relation.target.name).filter
        (relation.relates plan.selection.entity.table row)).length ≤ 1) :
    (plan.combinations database row).length ≤ 1 := by
  unfold combinations
  refine List.foldlRecOn plan.selection.joins _
    (motive := fun built : List Joined => built.length ≤ 1) (Nat.le_refl 1) ?_
  intro built short relation joined
  have targets := related_length (single relation joined)
  match built, short with
  | [], _ => exact Nat.zero_le 1
  | [only], _ => simpa using targets

theorem block_start {row : Row} {joined : Joined} (member : joined ∈ plan.block database row) :
    joined.head? = some (some row) :=
  combinations_start (List.mem_filter.mp member).1

theorem block_rooted (row : Row) : ∀ joined ∈ plan.block database row, rootRow joined = row := by
  intro joined member
  rw [rootRow, block_start member]
  rfl

theorem block_keyed (row : Row) :
    ∀ joined ∈ plan.block database row, plan.key joined = plan.selection.entity.rowKey row := by
  intro joined member
  rw [key, block_rooted row joined member]
  rfl

theorem filtered_eq : plan.filtered database = (plan.rows database).flatMap (plan.block database) :=
  List.filter_flatMap

theorem sorted_flat_map (sound : database.Sound plan.selection.entity) (sorts : plan.SortsRoots)
    {part : Row → List Joined}
    (starts : ∀ row, ∀ joined ∈ part row, joined.head? = some (some row)) :
    plan.sorted ((plan.rows database).flatMap part) =
      (plan.sortedRows database).flatMap part := by
  have rooted (row : Row) : ∀ joined ∈ part row, rootRow joined = row := by
    intro joined member
    rw [rootRow, starts row joined member]
    rfl
  have sort :=
    (IsStableSort.merge_sort (rowOrder plan.orderings) (plan.rows database)).flat_map rooted
  unfold sortedRows
  rw [sort.eq_merge_sort]
  apply IsStableSort.merge_sort_congr
  intro left leftMember right rightMember
  obtain ⟨leftRow, leftRoot, leftPart⟩ := List.mem_flatMap.mp leftMember
  obtain ⟨rightRow, rightRoot, rightPart⟩ := List.mem_flatMap.mp rightMember
  rw [compare_by_eq_row_order sorts.ofRoots (starts leftRow left leftPart)
    (starts rightRow right rightPart) (sound.numbers leftRow leftRoot)
    (sound.numbers rightRow rightRoot), Function.onFun_apply, rooted leftRow left leftPart,
    rooted rightRow right rightPart]

/-- Roots without a joined row drop out of the blocks, of their heads and of the keys alike. -/
theorem kept_flat_map (rows : List Row) :
    (rows.filter fun row => !(plan.block database row).isEmpty).flatMap (plan.block database) =
      rows.flatMap (plan.block database) := by
  induction rows with
  | nil => rfl
  | cons row rows induction =>
      rw [List.filter_cons, List.flatMap_cons]
      cases joined : plan.block database row with
      | nil => exact induction
      | cons first others =>
          simp only [List.isEmpty_cons, Bool.not_false, if_true, List.flatMap_cons, joined,
            induction]

def heads (plan : Plan) (database : Database) (row : Row) : List Joined :=
  (plan.block database row).head?.toList

theorem heads_start (row : Row) :
    ∀ joined ∈ plan.heads database row, joined.head? = some (some row) := by
  intro joined member
  exact block_start (List.mem_of_mem_head? (Option.mem_toList.mp member))

theorem heads_keys (plan : Plan) (database : Database) (rows : List Row) :
    (rows.flatMap (plan.heads database)).map plan.key =
      (rows.filter fun row => !(plan.block database row).isEmpty).map
        plan.selection.entity.rowKey := by
  induction rows with
  | nil => rfl
  | cons row rows induction =>
      rw [List.filter_cons, List.flatMap_cons, List.map_append, induction]
      cases joined : plan.block database row with
      | nil => simp [heads, joined]
      | cons first others =>
          have firstKey : plan.key first = plan.selection.entity.rowKey row :=
            block_keyed row first (by rw [joined]; exact List.mem_cons_self)
          simp [heads, joined, firstKey]

theorem firsts_of_blocks {rows : List Row}
    (distinct : (rows.map plan.selection.entity.rowKey).Nodup) :
    firstByKey plan.key [] (rows.flatMap (plan.block database)) =
      rows.flatMap (plan.heads database) :=
  first_by_key_flat_map block_keyed distinct fun _ _ => List.not_mem_nil

theorem own_block {rows : List Row} {row : Row}
    (distinct : (rows.map plan.selection.entity.rowKey).Nodup) (member : row ∈ rows) :
    ((rows.flatMap (plan.block database)).filter fun other =>
      plan.key other = plan.selection.entity.rowKey row) = plan.block database row := by
  have alone := filter_keys_of_sublist (List.singleton_sublist.mpr member) distinct
  simp only [List.map_cons, List.map_nil, List.contains_cons, List.contains_nil,
    Bool.or_false] at alone
  have sameTest : (fun item => decide (plan.selection.entity.rowKey item =
      plan.selection.entity.rowKey row)) = fun item =>
        plan.selection.entity.rowKey item == plan.selection.entity.rowKey row := by
    funext item
    rw [Bool.eq_iff_iff, decide_eq_true_iff, beq_iff_eq]
  rw [filter_flat_map_keyed block_keyed fun key => key = plan.selection.entity.rowKey row,
    sameTest, alone, List.flatMap_singleton]

section Loaded

variable (sound : database.Sound plan.selection.entity) (sorts : plan.SortsRoots)

include sound

theorem rows_keys : ((plan.rows database).map plan.selection.entity.rowKey).Nodup :=
  Entity.row_keys_distinct sound

theorem sorted_rows_keys :
    ((plan.sortedRows database).map plan.selection.entity.rowKey).Nodup :=
  ((List.mergeSort_perm (plan.rows database) _).map plan.selection.entity.rowKey).nodup_iff.mpr
    (rows_keys sound)

theorem total_eq : plan.total database = (plan.keptRows database).length := by
  have counted : ((plan.rows database).flatMap (plan.heads database)).length =
      ((plan.rows database).filter fun row => !(plan.block database row).isEmpty).length := by
    have keys := congrArg List.length (heads_keys plan database (plan.rows database))
    rwa [List.length_map, List.length_map] at keys
  rw [total, filtered_eq, firsts_of_blocks (rows_keys sound), counted]
  exact ((List.mergeSort_perm (plan.rows database) _).filter _).length_eq.symm

include sorts

theorem page_keys_eq :
    plan.pageKeys database =
      (plan.bounded (plan.keptRows database)).map plan.selection.entity.rowKey := by
  unfold pageKeys bounded
  rw [filtered_eq, firsts_of_blocks (rows_keys sound),
    sorted_flat_map sound sorts heads_start, ← cut_map, heads_keys, cut_map]
  rfl

/-- When the page is cut over keys, the keys pick the blocks of the page. -/
theorem page_rows_of_keys (overKeys : plan.selection.pagesKeys = true) :
    plan.pageRows database =
      (plan.bounded (plan.keptRows database)).flatMap (plan.block database) := by
  have within : (plan.bounded (plan.keptRows database)).Sublist (plan.sortedRows database) :=
    (cut_sublist _ _ _).trans List.filter_sublist
  simp only [pageRows, overKeys, if_true]
  rw [page_keys_eq sound sorts, filtered_eq, List.filter_flatMap, sorted_flat_map sound sorts,
    ← List.filter_flatMap]
  · rw [filter_flat_map_keyed block_keyed fun key =>
        ((plan.bounded (plan.keptRows database)).map plan.selection.entity.rowKey).contains key,
      filter_keys_of_sublist within (sorted_rows_keys sound)]
  · intro row joined member
    exact block_start (List.mem_of_mem_filter member)

/-- When the page is cut over joined rows, either nothing is cut or every block is one row. -/
theorem page_rows_of_rows (overRows : plan.selection.pagesKeys = false)
    (joins : ∀ relation ∈ plan.selection.joins, relation ∈ plan.selection.entity.relations) :
    plan.pageRows database =
      (plan.bounded (plan.keptRows database)).flatMap (plan.block database) := by
  have whole : plan.sorted (plan.filtered database) =
      (plan.keptRows database).flatMap (plan.block database) := by
    rw [filtered_eq, sorted_flat_map sound sorts fun row joined member => block_start member]
    exact (kept_flat_map (plan.sortedRows database)).symm
  unfold pageRows
  rw [if_neg (by rw [overRows]; exact Bool.false_ne_true), whole]
  unfold bounded
  cases paged : plan.selection.isPaged with
  | false =>
      obtain ⟨noLimit, noOffset⟩ := Bool.or_eq_false_iff.mp paged
      rw [Option.isSome_eq_false_iff, Option.isNone_iff_eq_none] at noLimit noOffset
      rw [noLimit, noOffset]
      rfl
  | true =>
      apply cut_flat_map
      intro row member
      obtain ⟨sortedMember, kept⟩ := List.mem_filter.mp member
      have rowMember : row ∈ plan.rows database := List.mem_mergeSort.mp sortedMember
      have noCollection : plan.selection.joins.any (·.isCollection) = false := by
        rwa [Selection.pagesKeys, paged, Bool.true_and] at overRows
      have short : (plan.block database row).length ≤ 1 := by
        refine Nat.le_trans (List.length_filter_le _ _) (combinations_length ?_)
        intro relation joined
        refine sound.single relation (joins relation joined) ?_ row rowMember
        exact eq_false_of_ne_true (List.any_eq_false.mp noCollection relation joined)
      match shown : plan.block database row with
      | [] => rw [shown] at kept; cases kept
      | [part] => exact ⟨part, rfl⟩
      | _ :: _ :: _ =>
          rw [shown] at short
          simp at short

omit sound in
include sorts in
theorem orderings_of_key (keyed : plan.selection.entity.key ≠ []) :
    plan.orderings.isEmpty = false := by
  obtain ⟨name, member⟩ := List.exists_mem_of_ne_nil _ keyed
  obtain ⟨ordering, known, _⟩ := sorts.wholeKey name member
  cases found : plan.orderings with
  | nil => rw [found] at known; cases known
  | cons first others => rfl

theorem loaded_eq
    (joins : ∀ relation ∈ plan.selection.joins, relation ∈ plan.selection.entity.relations) :
    plan.loaded database =
      (plan.bounded (plan.keptRows database)).map fun row => (row, plan.block database row) := by
  have pageRowsEq : plan.pageRows database =
      (plan.bounded (plan.keptRows database)).flatMap (plan.block database) := by
    cases overKeys : plan.selection.pagesKeys with
    | true => exact page_rows_of_keys sound sorts overKeys
    | false => exact page_rows_of_rows sound sorts overKeys joins
  have within : (plan.bounded (plan.keptRows database)).Sublist (plan.keptRows database) :=
    cut_sublist _ _ _
  have distinct : ((plan.bounded (plan.keptRows database)).map
      plan.selection.entity.rowKey).Nodup :=
    (sorted_rows_keys sound).sublist ((within.trans List.filter_sublist).map _)
  unfold loaded
  rw [pageRowsEq]
  dsimp only
  rw [roots, orderings_of_key sorts sound.keyed, if_neg Bool.false_ne_true,
    firsts_of_blocks distinct, List.map_flatMap, List.map_eq_flatMap]
  apply List.flatMap_congr
  intro row member
  have kept := (List.mem_filter.mp (within.subset member)).2
  cases joined : plan.block database row with
  | nil => rw [joined] at kept; cases kept
  | cons first others =>
      have firstMember : first ∈ plan.block database row := by
        rw [joined]
        exact List.mem_cons_self
      rw [heads, joined]
      simp only [List.head?_cons, Option.toList_some, List.map_cons, List.map_nil]
      rw [block_rooted row first firstMember, block_keyed row first firstMember,
        own_block distinct member, joined]

/-- With the whole key among the orderings no two roots tie, so nothing is left to the engine. -/
theorem kept_rows_strict :
    (plan.keptRows database).Pairwise fun left right =>
      compareBy plan.orderings [some left] [some right] = .lt := by
  have apart : (plan.sortedRows database).Pairwise fun left right =>
      rowOrder plan.orderings left right ≠ .eq := by
    have symmetric {left right : Row} (different : rowOrder plan.orderings left right ≠ .eq) :
        rowOrder plan.orderings right left ≠ .eq :=
      fun same => different (Std.OrientedCmp.eq_symm same)
    refine (List.Perm.pairwise_iff symmetric (List.mergeSort_perm (plan.rows database) _)).mpr ?_
    apply sound.distinct.imp_of_mem
    intro left right leftMember rightMember differ same
    obtain ⟨name, member, different⟩ := differ
    obtain ⟨ordering, known, column⟩ := sorts.wholeKey name member
    apply different
    rw [Cell.compare_eq_place_order
      (Entity.cell_is_number (sound.numbers left leftMember) name)
      (Entity.cell_is_number (sound.numbers right rightMember) name)]
    have level := level_under_keys same ordering known
    simp only [Table.cell, column, Option.bind_some]
    exact level
  have ordered := (IsStableSort.merge_sort (rowOrder plan.orderings) (plan.rows database)).ordered
  refine List.Pairwise.sublist List.filter_sublist ?_
  apply (ordered.and apart).imp_of_mem
  intro left right leftMember rightMember both
  have leftRoot : left ∈ plan.rows database := List.mem_mergeSort.mp leftMember
  have rightRoot : right ∈ plan.rows database := List.mem_mergeSort.mp rightMember
  rw [compare_by_eq_row_order sorts.ofRoots rfl rfl (sound.numbers left leftRoot)
    (sound.numbers right rightRoot)]
  obtain ⟨notAbove, notLevel⟩ := both
  cases placed : rowOrder plan.orderings left right with
  | lt => rfl
  | eq => exact absurd placed notLevel
  | gt => exact absurd placed notAbove

end Loaded

end Plan

end Sql

end QueryOptions
