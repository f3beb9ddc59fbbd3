import QueryOptions.Proofs.Agreement.Reference
import QueryOptions.Proofs.Memory.Received

/-!
Users in memory. A collection of users selects, sorts and cuts the same users as the query means,
although it sorts what it has selected, once for every sort.
-/

namespace QueryOptions.Agreement

open Memory

variable {numbered : List (Condition × Nat)} {sorts : List (UserColumn × Direction)} {page : Page}
  {users : List UserRecord}

def collectionOf (users : List UserRecord) (numbered : List (Condition × Nat))
    (sorts : List (UserColumn × Direction)) (page : Page) : Collection :=
  .requested (users.map UserRecord.value) "entity" "entity" (predicatesOf "entity" numbered)
    (sortKeysOf sorts) page

theorem local_path (column : UserColumn) :
    (collectionOf users numbered sorts page).localPath ("entity" ++ "." ++ column.label) =
      column.label :=
  Collection.local_path_of_root _ column.label

theorem resolve_value [Attributes] (user : UserRecord) (column : UserColumn) :
    resolve user.value column.label = (user.cell column).value := by
  cases column <;> rfl

theorem operand_value (condition : Agreement.Condition) (index : Nat) :
    (Memory.Condition.ofPredicate (condition.predicate "entity" index)).operand =
      condition.operandCell.value := by
  unfold Memory.Condition.ofPredicate Agreement.Condition.predicate Predicate.onColumn
    Agreement.Condition.operandCell
  cases found : condition.operand with
  | none => rfl
  | some literal =>
      rw [Agreement.Condition.operand_of_literal found]
      exact condition.literal_cell_value.symm

section Answers

variable [Attributes]

theorem satisfies_agrees (condition : Agreement.Condition) (index : Nat) (user : UserRecord) :
    (collectionOf users numbered sorts page).satisfies user.value
        (.ofPredicate (condition.predicate "entity" index)) =
      condition.holds user := by
  have field : (Memory.Condition.ofPredicate (condition.predicate "entity" index)).field =
      "entity" ++ "." ++ condition.column.label := rfl
  have operator : (Memory.Condition.ofPredicate (condition.predicate "entity" index)).operator =
      condition.operator := rfl
  unfold Collection.satisfies
  rw [field, operator, operand_value, local_path, resolve_value]
  exact holds_agree (user.cell_of_kind condition.column) condition.operand_cell_of_kind
    condition.operator condition.operator_exact

theorem matching_users :
    (collectionOf users numbered sorts page).matching =
      (users.filter (queryOf numbered sorts page).keeps).map UserRecord.value := by
  have keeps (user : UserRecord) : (collectionOf users numbered sorts page).conditions.all
      ((collectionOf users numbered sorts page).satisfies user.value) =
        (queryOf numbered sorts page).keeps user := by
    have conditions : (collectionOf users numbered sorts page).conditions =
        numbered.map fun entry =>
          Memory.Condition.ofPredicate (entry.1.predicate "entity" entry.2) := List.map_map
    rw [conditions, Query.keeps, queryOf, List.all_map, List.all_map]
    exact congrArg numbered.all (funext fun entry => satisfies_agrees entry.1 entry.2 user)
  have rows : (collectionOf users numbered sorts page).rows = users.map UserRecord.value := rfl
  unfold Collection.matching
  rw [rows, List.filter_map]
  exact congrArg (List.map UserRecord.value) (List.filter_congr fun user _ => keeps user)

theorem value_order_of_users {path : String → String}
    (leads : ∀ (user : UserRecord) (column : UserColumn),
      resolve user.value (path (qualifyField column.label "entity")) = (user.cell column).value)
    (left right : UserRecord) :
    valueOrder path (sorts.map fun sort => (qualifyField sort.1.label "entity", sort.2)) left.value
        right.value =
      userOrder sorts left right := by
  have cell (column : UserColumn) (user : UserRecord) :
      cellOf (resolve user.value (path (qualifyField column.label "entity"))) =
        user.cell column := by
    rw [leads, cell_of_value (user.cell_of_kind column)]
  exact Sql.cell_order_map (fun column : UserColumn => qualifyField column.label "entity")
    UserRecord.value cell sorts left right

theorem collection_testable : (collectionOf users numbered sorts page).isTestable = true := by
  refine Collection.is_testable_of_no_pattern fun condition member => ?_
  have conditions : (collectionOf users numbered sorts page).conditions = numbered.map fun entry =>
      Memory.Condition.ofPredicate (entry.1.predicate "entity" entry.2) := List.map_map
  rw [conditions] at member
  obtain ⟨entry, _, rfl⟩ := List.mem_map.mp member
  exact entry.1.operator_exact

theorem ordered_users :
    (collectionOf users numbered sorts page).ordered =
      .ok (((queryOf numbered sorts page).kept users).map UserRecord.value) := by
  have orderings : (collectionOf users numbered sorts page).orderings =
      sorts.map fun sort => (qualifyField sort.1.label "entity", sort.2) := List.map_map
  have leads (user : UserRecord) (column : UserColumn) :
      resolve user.value ((collectionOf users numbered sorts page).localPath
        (qualifyField column.label "entity")) = (user.cell column).value := by
    rw [label_qualified, local_path, resolve_value]
  have holds : ∀ ordering ∈ (collectionOf users numbered sorts page).orderings,
      ∃ kind, ∀ row ∈ (collectionOf users numbered sorts page).matching,
        HoldsKind ((collectionOf users numbered sorts page).localPath ordering.1) kind row := by
    intro ordering member
    rw [orderings] at member
    obtain ⟨sort, _, rfl⟩ := List.mem_map.mp member
    refine ⟨sort.1.kind, ?_⟩
    intro row matched
    rw [matching_users] at matched
    obtain ⟨user, _, rfl⟩ := List.mem_map.mp matched
    exact ⟨user.cell sort.1, user.cell_of_kind sort.1, leads user sort.1⟩
  obtain ⟨sorted, found, sort⟩ := passes_stable _ _ _ holds
  unfold Collection.ordered Query.kept
  rw [found, sort.eq_merge_sort, matching_users, orderings]
  apply congrArg Except.ok
  symm
  apply List.map_mergeSort
  intro left _ right _
  rw [value_order_of_users leads]
  rfl

theorem collection_executes (skipNonneg : 0 ≤ page.skip) (limitNonneg : 0 ≤ page.limit) :
    (collectionOf users numbered sorts page).execute =
      .ok ((queryOf numbered sorts page).answer users) := by
  have bounds : (collectionOf users numbered sorts page).bounded
      (((queryOf numbered sorts page).kept users).map UserRecord.value) =
        (page.slice ((queryOf numbered sorts page).kept users)).map UserRecord.value := by
    rw [Collection.bounded_eq_slice skipNonneg limitNonneg rfl rfl, Page.slice_map]
  have total : (collectionOf users numbered sorts page).matching.length =
      ((queryOf numbered sorts page).kept users).length := by
    rw [matching_users, List.length_map, Query.kept, List.length_mergeSort]
  unfold Collection.execute
  rw [if_pos collection_testable, ordered_users]
  dsimp only
  rw [bounds, total]
  rfl

/-- A collection of users answers what the query means. -/
theorem collection_answers {access : Access} {settings : Settings}
    {options : List (String × Value)} {conditions : List Agreement.Condition}
    (asks : Asks access settings options conditions sorts) :
    (Collection.ask (users.map UserRecord.value) "entity" access settings options).execute.2 =
      .ok ((queryOf (admitted access conditions.zipIdx) sorts
        (Page.ofSettings options settings)).answer users) := by
  have readFilter : (Collection.ask (users.map UserRecord.value) "entity" access settings
      options).request.readPredicates =
        .ok (predicatesOf "entity" (admitted access conditions.zipIdx)) := asks.read_predicates
  obtain ⟨skipNonneg, limitNonneg⟩ := Page.of_settings_nonneg options settings
  rw [Collection.ask_executes readFilter asks.read_sorts asks.read_expansions, asks.ofRoot]
  exact collection_executes skipNonneg limitNonneg

end Answers

end QueryOptions.Agreement
