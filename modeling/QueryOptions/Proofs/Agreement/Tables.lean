import QueryOptions.Proofs.Agreement.Reference
import Std.Data.String.ToInt

/-!
Users in a table. A query on users has a plan over the columns of the root alone, and executing the
plan answers what the query means, whatever the other tables hold.
-/

namespace QueryOptions

theorem placeholder_injective {left right : Int} (same : placeholder left = placeholder right) :
    left = right := by
  have letters := congrArg String.toList same
  simp only [placeholder, String.toList_append] at letters
  exact Int.repr_injective (String.toList_inj.mp (List.append_cancel_left letters))

namespace Agreement

open Sql

namespace UserColumn

def reference (column : UserColumn) : ColumnRef := ⟨0, column.index, column.kind⟩

theorem reference_resolved (column : UserColumn) :
    ColumnRef.resolve [⟨"entity", .users⟩] ("entity" ++ "." ++ column.label) =
      .ok column.reference := by
  cases column <;> exact ok_of_to_option (by decide +kernel)

theorem root_cell (column : UserColumn) (user : UserRecord) :
    column.reference.rootCell user.row = user.cell column := by
  cases column <;> rfl

end UserColumn

namespace Condition

def bound (condition : Condition) : BoundCondition :=
  ⟨condition.column.reference, condition.operator, condition.operandCell⟩

theorem bound_holds (condition : Condition) (user : UserRecord) :
    condition.bound.holds [some user.row] = condition.holds user := by
  have cell : condition.column.reference.cell [some user.row] = user.cell condition.column := by
    rw [ColumnRef.cell_of_root rfl rfl, UserColumn.root_cell]
  unfold BoundCondition.holds holds bound
  rw [cell]
  rfl

end Condition

section Plan

variable (numbered : List (Condition × Nat)) (sorts : List (UserColumn × Direction)) (page : Page)

def selectionOf : Selection :=
  .requested .user "entity" "entity" (predicatesOf "entity" numbered) (sortKeysOf sorts) [] page

def planOf : Plan where
  selection := selectionOf numbered sorts page
  conditions := numbered.map fun (condition, _) => condition.bound
  orderings := sorts.map fun sort => (sort.1.reference, sort.2)

variable {numbered}

theorem predicate_binding {condition : Condition} {index : Nat} {binding : Binding}
    (bound : (condition.predicate "entity" index).binding = some binding) :
    binding = ⟨placeholder index, condition.literal⟩ := by
  obtain ⟨literal, found, rfl⟩ := Option.map_eq_some_iff.mp bound
  rw [Condition.operand_of_literal found]

theorem names_distinct (distinct : (numbered.map Prod.snd).Nodup) :
    (((predicatesOf "entity" numbered).filterMap (·.binding)).map (·.name)).Nodup := by
  unfold List.Nodup predicatesOf at *
  rw [List.pairwise_map] at distinct
  rw [List.pairwise_map, List.pairwise_filterMap, List.pairwise_map]
  refine distinct.imp ?_
  intro left right apart leftBinding leftBound rightBinding rightBound same
  rw [predicate_binding leftBound, predicate_binding rightBound] at same
  exact apart (Int.ofNat_inj.mp (placeholder_injective same))

theorem conditions_bound (distinct : (numbered.map Prod.snd).Nodup) :
    (selectionOf numbered sorts page).predicates.mapM (selectionOf numbered sorts page).condition =
      .ok (planOf numbered sorts page).conditions := by
  have bound : ∀ entry ∈ numbered, (selectionOf numbered sorts page).condition
      (entry.1.predicate "entity" entry.2) = .ok entry.1.bound := by
    intro entry member
    have resolved : ColumnRef.resolve (selectionOf numbered sorts page).sources
        (entry.1.predicate "entity" entry.2).field = .ok entry.1.column.reference :=
      entry.1.column.reference_resolved
    have operand : (selectionOf numbered sorts page).operand
        (entry.1.predicate "entity" entry.2) = entry.1.operandCell := by
      rw [Selection.operand_of_distinct (names_distinct distinct) (List.mem_map_of_mem member)]
      unfold Condition.operandCell Condition.predicate Predicate.onColumn
      cases entry.1.operand <;> rfl
    unfold Selection.condition
    rw [resolved, operand]
    rfl
  exact (List.mapM_map ..).trans (map_m_of_ok bound)

theorem orderings_resolved :
    (selectionOf numbered sorts page).orderings.mapM (selectionOf numbered sorts page).ordering =
      .ok (planOf numbered sorts page).orderings := by
  have resolved : ∀ sort ∈ sorts, (selectionOf numbered sorts page).ordering
      (qualifyField sort.1.label "entity", sort.2) = .ok (sort.1.reference, sort.2) := by
    intro sort _
    have column : ColumnRef.resolve (selectionOf numbered sorts page).sources
        ("entity" ++ "." ++ sort.1.label) = .ok sort.1.reference :=
      sort.1.reference_resolved
    unfold Selection.ordering
    rw [label_qualified, column]
    rfl
  have named : (selectionOf numbered sorts page).orderings =
      sorts.map fun sort => (qualifyField sort.1.label "entity", sort.2) := List.map_map
  rw [named, List.mapM_map]
  exact map_m_of_ok resolved

theorem fits_of_nonneg {value : Int} (nonneg : 0 ≤ value) (below : value < Number.wordBound) :
    Cell.fits value = true := by
  unfold Number.wordBound at below
  unfold Cell.fits Number.wordBound
  rw [Bool.and_eq_true, decide_eq_true_iff, decide_eq_true_iff]
  omega

theorem literal_fits {entry : Condition × Nat} {binding : Binding}
    (bound : (entry.1.predicate "entity" entry.2).binding = some binding) {value : Int}
    (integer : binding.literal = .integer value) : Cell.fits value = true := by
  have writes := entry.1.writes
  rw [predicate_binding bound] at integer
  rw [show entry.1.literal = .integer value from integer] at writes
  exact writes.fits_of_integer

theorem bound_fits (limitFits : page.limit < Number.wordBound)
    (skipFits : page.skip < Number.wordBound) {value : Int}
    (member : value ∈ (selectionOf numbered sorts page).bounds) : Cell.fits value = true := by
  rcases List.mem_append.mp member with ofLimit | ofOffset
  · obtain ⟨positive, same⟩ : 0 < page.limit ∧ page.limit = value := by
      simpa [selectionOf, Selection.requested] using ofLimit
    exact fits_of_nonneg (by omega) (by omega)
  · obtain ⟨positive, same⟩ : 0 < page.skip ∧ page.skip = value := by
      simpa [selectionOf, Selection.requested] using ofOffset
    exact fits_of_nonneg (by omega) (by omega)

theorem nothing_oversized (distinct : (numbered.map Prod.snd).Nodup)
    (limitFits : page.limit < Number.wordBound) (skipFits : page.skip < Number.wordBound) :
    (selectionOf numbered sorts page).oversized? = none := by
  apply List.find?_eq_none.mpr
  intro value member
  rw [Bool.not_eq_true, Bool.not_eq_false']
  rcases List.mem_append.mp member with ofLiteral | ofBound
  · obtain ⟨binding, known, isInteger⟩ := List.mem_filterMap.mp ofLiteral
    rw [Selection.bindings_of_distinct (names_distinct distinct)] at known
    obtain ⟨predicate, added, bound⟩ := List.mem_filterMap.mp known
    obtain ⟨entry, _, rfl⟩ := List.mem_map.mp added
    split at isInteger
    · rename_i integer
      cases isInteger
      exact literal_fits bound integer
    · cases isInteger
  · exact bound_fits sorts page limitFits skipFits ofBound

theorem planned (distinct : (numbered.map Prod.snd).Nodup)
    (limitFits : page.limit < Number.wordBound) (skipFits : page.skip < Number.wordBound) :
    (selectionOf numbered sorts page).plan = .ok (planOf numbered sorts page) :=
  Selection.plan_eq_ok_iff.mpr ⟨rfl, conditions_bound sorts page distinct,
    orderings_resolved sorts page, nothing_oversized sorts page distinct limitFits skipFits, rfl⟩

end Plan

section Answer

variable (users : List UserRecord)

def usersOnly : Database where
  rows name := if name = "users" then users.map UserRecord.row else []

theorem UserRecord.numbers (user : UserRecord) : .real .nan ∉ user.row := by
  intro member
  obtain ⟨column, _, cell⟩ := List.mem_map.mp member
  exact number_of_kind (user.cell_of_kind column) cell

theorem users_sound (distinct : (users.map UserRecord.id).Nodup) :
    (usersOnly users).Sound .user := by
  have tableRows : (usersOnly users).rows Entity.user.table.name = users.map UserRecord.row := rfl
  refine ⟨by decide, ?_, ?_, ?_⟩
  · rw [List.Nodup, List.pairwise_map] at distinct
    rw [tableRows, List.pairwise_map]
    refine distinct.imp ?_
    intro left right apart
    refine ⟨"id", by decide, ?_⟩
    intro same
    have equal : left.id * 1 = right.id * 1 := compare_eq_iff_eq.mp same
    omega
  · intro row member
    rw [tableRows] at member
    obtain ⟨user, _, rfl⟩ := List.mem_map.mp member
    exact user.numbers
  · intro relation member _ root _
    have noRows : (usersOnly users).rows relation.target.name = [] := by
      rcases List.mem_cons.mp member with rfl | other
      · rfl
      · rw [List.mem_singleton.mp other]
        rfl
    rw [noRows]
    exact Nat.zero_le 1

variable {users} {numbered : List (Condition × Nat)} {sorts : List (UserColumn × Direction)}
  {page : Page}

theorem row_order_of_users (left right : UserRecord) :
    rowOrder (planOf numbered sorts page).orderings left.row right.row =
      userOrder sorts left right :=
  cell_order_map UserColumn.reference UserRecord.row UserColumn.root_cell sorts left right

theorem conditions_hold (user : UserRecord) :
    (planOf numbered sorts page).conditions.all (·.holds [some user.row]) =
      (queryOf numbered sorts page).keeps user := by
  unfold planOf Query.keeps queryOf
  rw [List.all_map, List.all_map]
  exact congrArg numbered.all (funext fun entry => entry.1.bound_holds user)

theorem block_of_user (user : UserRecord) (database : Database) :
    (planOf numbered sorts page).block database user.row =
      if (queryOf numbered sorts page).keeps user then [[some user.row]] else [] := by
  have alone : (planOf numbered sorts page).combinations database user.row =
      [[some user.row]] := rfl
  rw [Plan.block, alone, List.filter_singleton, conditions_hold, cond_eq_ite]

theorem kept_rows_of_users :
    (planOf numbered sorts page).keptRows (usersOnly users) =
      ((queryOf numbered sorts page).kept users).map UserRecord.row := by
  have sorted : (planOf numbered sorts page).sortedRows (usersOnly users) =
      (users.mergeSort fun left right => userOrder sorts left right ≠ .gt).map
        UserRecord.row := by
    refine (List.map_mergeSort ?_).symm
    intro left _ right _
    rw [row_order_of_users]
  unfold Plan.keptRows
  rw [sorted, List.filter_map, Query.kept_of_sorted]
  apply congrArg (List.map UserRecord.row)
  apply List.filter_congr
  intro user _
  rw [Function.comp_apply, block_of_user]
  cases (queryOf numbered sorts page).keeps user <;> rfl

theorem plan_answers (distinct : (users.map UserRecord.id).Nodup)
    (byId : ∃ direction, (UserColumn.id, direction) ∈ sorts) (skipNonneg : 0 ≤ page.skip)
    (limitNonneg : 0 ≤ page.limit) :
    (planOf numbered sorts page).answer (usersOnly users) =
      (queryOf numbered sorts page).answer users := by
  have sound : (usersOnly users).Sound (planOf numbered sorts page).selection.entity :=
    users_sound users distinct
  have sortsRoots : (planOf numbered sorts page).SortsRoots := by
    refine ⟨?_, ?_⟩
    · intro ordering member
      obtain ⟨sort, _, rfl⟩ := List.mem_map.mp member
      rfl
    · intro name member
      obtain ⟨direction, known⟩ := byId
      rw [List.mem_singleton.mp member]
      exact ⟨(UserColumn.id.reference, direction), List.mem_map.mpr ⟨_, known, rfl⟩, rfl⟩
  have noJoins : ∀ relation ∈ (planOf numbered sorts page).selection.joins,
      relation ∈ (planOf numbered sorts page).selection.entity.relations := by
    intro relation member
    cases member
  have bounds (items : List Row) : (planOf numbered sorts page).bounded items = page.slice items :=
    Page.cut_eq_slice skipNonneg limitNonneg items
  rw [Plan.answer_eq, Plan.loaded_eq sound sortsRoots noJoins, Plan.total_eq sound, bounds,
    kept_rows_of_users, Page.slice_map, List.map_map, List.map_map, List.length_map]
  rfl

/-- Without joins only the rows of the root matter. -/
theorem answer_of_same_rows {plan : Plan} {left right : Database}
    (alone : plan.selection.joins = [])
    (same : left.rows plan.selection.entity.table.name =
      right.rows plan.selection.entity.table.name) : plan.answer left = plan.answer right := by
  have combinations : plan.combinations left = plan.combinations right := by
    funext row
    unfold Plan.combinations
    rw [alone]
    rfl
  have filtered : plan.filtered left = plan.filtered right := by
    unfold Plan.filtered
    rw [same, combinations]
  unfold Plan.answer Plan.pageRows Plan.pageKeys Plan.total
  rw [filtered]

end Answer

theorem indices_distinct (access : Access) (conditions : List Condition) :
    ((admitted access conditions.zipIdx).map Prod.snd).Nodup := by
  have all : (conditions.zipIdx.map Prod.snd).Nodup := by
    rw [List.zipIdx_map_snd]
    exact List.nodup_range'
  exact all.sublist (List.filter_sublist.map Prod.snd)

/-- A store of users answers what the query means. -/
theorem store_answers {database : Database} {users : List UserRecord} {access : Access}
    {settings : Settings} {options : List (String × Value)} {conditions : List Condition}
    {sorts : List (UserColumn × Direction)}
    (tableRows : database.rows "users" = users.map UserRecord.row)
    (distinct : (users.map UserRecord.id).Nodup)
    (asks : Asks access settings options conditions sorts) :
    (Store.ask database .user "entity" access settings options).execute.2 =
      .ok ((queryOf (admitted access conditions.zipIdx) sorts
        (Page.ofSettings options settings)).answer users) := by
  have readFilter :
      (Store.ask database .user "entity" access settings options).request.readPredicates =
        .ok (predicatesOf "entity" (admitted access conditions.zipIdx)) := asks.read_predicates
  obtain ⟨applied, reached⟩ := Store.ask_applied readFilter asks.read_sorts asks.read_expansions
  rw [asks.ofRoot] at reached
  obtain ⟨skipNonneg, limitNonneg⟩ := Page.of_settings_nonneg options settings
  have usersAnswer : (planOf (admitted access conditions.zipIdx) sorts
      (Page.ofSettings options settings)).answer (usersOnly users) = _ :=
    plan_answers distinct asks.byId skipNonneg limitNonneg
  refine Store.execute_eq_ok_iff.mpr ⟨⟨_, applied⟩, planOf (admitted access conditions.zipIdx)
    sorts (Page.ofSettings options settings), ?_, ?_⟩
  · rw [reached]
    exact planned sorts _ (indices_distinct access conditions) asks.limitFits asks.skipFits
  · rw [reached, ← usersAnswer]
    exact answer_of_same_rows rfl tableRows.symm

end Agreement

end QueryOptions
