import QueryOptions.Proofs.Request.Dropping
import QueryOptions.Proofs.Sql.Paging

/-!
Expanding keeps the roots. A path with a point that is found among the columns of the root alone is
the same column when relations are joined, and a join leaves every root at least one joined row. So
a request that names columns of its root only answers the same roots in the same order, whatever it
expands.
-/

namespace QueryOptions

theorem point_in_qualified (name rootAlias : String) :
    '.' ∈ (qualifyField name rootAlias).toList := by
  unfold qualifyField
  split
  · rename_i dotted
    exact List.contains_iff_mem.mp dotted
  · simp

theorem Predicate.IsOnPath.point_in_field {rootAlias : String} {predicate : Predicate}
    (onPath : predicate.IsOnPath rootAlias) : '.' ∈ predicate.field.toList := by
  obtain ⟨path, _, ⟨dotted, same⟩ | ⟨_, same⟩⟩ := onPath
  · rwa [same]
  · simp [same]

namespace Sql

theorem map_m_eq_ok_iff {ε α β : Type} {read : α → Except ε β} {items : List α} {parts : List β} :
    items.mapM read = .ok parts ↔
      List.Forall₂ (fun item part => read item = .ok part) items parts := by
  induction items generalizing parts with
  | nil =>
      rw [List.mapM_nil, List.forall₂_nil_left_iff]
      constructor
      · intro done
        cases done
        rfl
      · rintro rfl
        rfl
  | cons item items induction =>
      rw [List.mapM_cons, List.forall₂_cons_left_iff]
      constructor
      · intro done
        obtain ⟨part, found, rest⟩ := parts_of_bind done
        obtain ⟨others, foundRest, same⟩ := parts_of_bind rest
        cases same
        exact ⟨part, others, found, induction.mp foundRest, rfl⟩
      · rintro ⟨part, others, found, foundRest, rfl⟩
        rw [found, induction.mpr foundRest]
        rfl

theorem map_m_transfer {ε α β : Type} {read other : α → Except ε β} {holds : β → Prop}
    {items : List α} {parts : List β}
    (transfers : ∀ item ∈ items, ∀ part, read item = .ok part →
      other item = .ok part ∧ holds part)
    (done : items.mapM read = .ok parts) :
    items.mapM other = .ok parts ∧ ∀ part ∈ parts, holds part := by
  rw [map_m_eq_ok_iff] at done ⊢
  induction done with
  | nil => exact ⟨.nil, by simp⟩
  | cons found _ induction =>
      obtain ⟨foundOther, holdsHere⟩ := transfers _ List.mem_cons_self _ found
      obtain ⟨foundRest, holdsRest⟩ := induction fun item member =>
        transfers item (List.mem_cons_of_mem _ member)
      exact ⟨.cons foundOther foundRest, List.forall_mem_cons.mpr ⟨holdsHere, holdsRest⟩⟩

namespace ColumnRef

theorem resolve_eq_ok_iff {sources : List Source} {path : String} {reference : ColumnRef} :
    resolve sources path = .ok reference ↔ resolve? sources path = some reference := by
  unfold resolve
  cases resolve? sources path with
  | none => simp
  | some found => simp

theorem find_cons (root : Source) (others : List Source) (admits : Source → Bool)
    (column : String) :
    ∃ more, find (root :: others) admits column = find [root] admits column ++ more := by
  unfold find
  rw [List.zipIdx_cons, List.flatMap_cons, List.zipIdx_singleton, List.flatMap_singleton]
  exact ⟨_, rfl⟩

theorem source_of_find {root : Source} {admits : Source → Bool} {column : String}
    {reference : ColumnRef} (found : reference ∈ find [root] admits column) :
    reference.source = 0 := by
  unfold find at found
  rw [List.zipIdx_singleton, List.flatMap_singleton] at found
  dsimp only at found
  split at found
  · obtain ⟨_, _, rfl⟩ := List.mem_map.mp found
    rfl
  · cases found

/-- Only a bare name can become ambiguous by more sources. -/
theorem resolve_with_more_sources {root : Source} (others : List Source) {path : String}
    {reference : ColumnRef} (dotted : '.' ∈ path.toList)
    (resolved : resolve? [root] path = some reference) :
    resolve? (root :: others) path = some reference ∧ reference.source = 0 := by
  obtain ⟨tableAlias, column, further, pieces⟩ := Text.split_at_char_of_mem dotted
  unfold resolve? at resolved ⊢
  rw [pieces] at resolved ⊢
  dsimp only at resolved ⊢
  split at resolved
  · cases resolved
  · rename_i readable
    rw [if_neg readable]
    cases further with
    | cons next further => cases resolved
    | nil =>
        obtain ⟨more, found⟩ := find_cons root others
          (fun source => Name.same source.tableAlias (String.ofList tableAlias))
          (String.ofList column)
        simp only [List.map_cons, List.map_nil] at resolved ⊢
        refine ⟨?_, source_of_find (List.mem_of_mem_head? resolved)⟩
        rw [found, List.head?_append, resolved]
        rfl

end ColumnRef

namespace Selection

def joining (selection : Selection) (joins : List Relation) : Selection :=
  { selection with joins := joins }

theorem requested_joining (entity : Entity) (rootAlias qualifier : String)
    (predicates : List Predicate) (sorts : List SortKey) (expansions : List String) (page : Page) :
    requested entity rootAlias qualifier predicates sorts expansions page =
      (requested entity rootAlias qualifier predicates sorts [] page).joining
        (entity.joinsWith [] expansions) := rfl

end Selection

namespace Plan

def joining (plan : Plan) (joins : List Relation) : Plan :=
  { plan with selection := plan.selection.joining joins }

structure NamesRoot (plan : Plan) : Prop where
  conditions : ∀ condition ∈ plan.conditions, condition.column.source = 0
  orderings : ∀ ordering ∈ plan.orderings, ordering.1.source = 0

end Plan

namespace Selection

section Joining

variable {selection : Selection} (alone : selection.joins = []) (joins : List Relation)

include alone

theorem sources_alone : selection.sources = [⟨selection.rootAlias, selection.entity.table⟩] := by
  unfold sources
  rw [alone]
  rfl

theorem resolve_joining {path : String} {reference : ColumnRef} (dotted : '.' ∈ path.toList)
    (resolved : ColumnRef.resolve selection.sources path = .ok reference) :
    ColumnRef.resolve (selection.joining joins).sources path = .ok reference ∧
      reference.source = 0 := by
  rw [sources_alone alone, ColumnRef.resolve_eq_ok_iff] at resolved
  rw [ColumnRef.resolve_eq_ok_iff]
  exact ColumnRef.resolve_with_more_sources _ dotted resolved

theorem condition_joining {predicate : Predicate} {condition : BoundCondition}
    (dotted : '.' ∈ predicate.field.toList)
    (found : selection.condition predicate = .ok condition) :
    (selection.joining joins).condition predicate = .ok condition ∧
      condition.column.source = 0 := by
  obtain ⟨column, resolved, same⟩ := parts_of_bind found
  obtain ⟨joined, ofRoot⟩ := resolve_joining alone joins dotted resolved
  cases same
  refine ⟨?_, ofRoot⟩
  unfold condition
  rw [joined]
  rfl

theorem ordering_joining {named : String × Direction} {ordered : ColumnRef × Direction}
    (dotted : '.' ∈ named.1.toList) (found : selection.ordering named = .ok ordered) :
    (selection.joining joins).ordering named = .ok ordered ∧ ordered.1.source = 0 := by
  obtain ⟨column, resolved, same⟩ := parts_of_bind found
  obtain ⟨joined, ofRoot⟩ := resolve_joining alone joins dotted resolved
  cases same
  refine ⟨?_, ofRoot⟩
  unfold ordering
  rw [joined]
  rfl

theorem plan_joining {plan : Plan} (planned : selection.plan = .ok plan)
    (apart : ∀ relation ∈ joins, Name.same selection.rootAlias relation.name = false)
    (fields : ∀ predicate ∈ selection.predicates, '.' ∈ predicate.field.toList)
    (sortFields : ∀ named ∈ selection.orderings, '.' ∈ named.1.toList) :
    (selection.joining joins).plan = .ok (plan.joining joins) ∧ plan.NamesRoot := by
  obtain ⟨_, conditions, orderings, fits, ofSelection⟩ := plan_eq_ok_iff.mp planned
  obtain ⟨joinedConditions, ofRoots⟩ := map_m_transfer
    (fun predicate member _ found =>
      condition_joining alone joins (fields predicate member) found) conditions
  obtain ⟨joinedOrderings, rootOrderings⟩ := map_m_transfer
    (fun named member _ found =>
      ordering_joining alone joins (sortFields named member) found) orderings
  have unambiguous : (selection.joining joins).ambiguousAlias? = none := by
    refine List.find?_eq_none.mpr fun name member => ?_
    obtain ⟨relation, joined, rfl⟩ := List.mem_map.mp member
    exact ne_true_of_eq_false (apart relation joined)
  refine ⟨plan_eq_ok_iff.mpr ⟨unambiguous, joinedConditions, joinedOrderings, fits, ?_⟩,
    ofRoots, rootOrderings⟩
  rw [Plan.joining, ofSelection]

end Joining

end Selection

namespace Plan

variable {plan : Plan} {database : Database}

theorem combinations_ne_nil (plan : Plan) (database : Database) (row : Row) :
    plan.combinations database row ≠ [] := by
  unfold combinations
  refine List.foldlRecOn plan.selection.joins _ (motive := fun built : List Joined => built ≠ [])
    (List.cons_ne_nil _ _) ?_
  intro built given relation _
  have targets : relation.related plan.selection.entity.table database row ≠ [] := by
    unfold Relation.related
    split
    · exact List.cons_ne_nil _ _
    · rename_i found nonempty
      exact fun none => nonempty (List.map_eq_nil_iff.mp none)
  obtain ⟨joined, others, built⟩ := List.exists_cons_of_ne_nil given
  rw [built, List.flatMap_cons]
  exact fun none => targets (List.map_eq_nil_iff.mp (List.append_eq_nil_iff.mp none).1)

/-- Conditions on columns of the root keep all of its joined rows or none. -/
theorem block_empty_of_names_root (names : plan.NamesRoot) (row : Row) :
    (plan.block database row).isEmpty =
      !(plan.conditions.all fun condition => condition.holds [some row]) := by
  have sameCell : ∀ joined ∈ plan.combinations database row, ∀ condition ∈ plan.conditions,
      condition.holds joined = condition.holds [some row] := by
    intro joined member condition known
    have ofRoot := names.conditions condition known
    have alone : condition.column.cell [some row] = condition.column.rootCell row :=
      ColumnRef.cell_of_root ofRoot rfl
    unfold BoundCondition.holds
    rw [ColumnRef.cell_of_root ofRoot (combinations_start member), alone]
  have sameTest : ∀ joined ∈ plan.combinations database row,
      plan.conditions.all (·.holds joined) =
        plan.conditions.all fun condition => condition.holds [some row] := by
    intro joined member
    rw [Bool.eq_iff_iff, List.all_eq_true, List.all_eq_true]
    exact forall₂_congr fun condition known => by rw [sameCell joined member condition known]
  unfold block
  rw [List.filter_congr sameTest]
  cases plan.conditions.all fun condition => condition.holds [some row] with
  | true => simpa using combinations_ne_nil plan database row
  | false => simp

theorem kept_rows_joining (names : plan.NamesRoot) (joins : List Relation) :
    (plan.joining joins).keptRows database = plan.keptRows database := by
  have joinedNames : (plan.joining joins).NamesRoot := ⟨names.conditions, names.orderings⟩
  unfold keptRows
  refine List.filter_congr fun row _ => ?_
  rw [block_empty_of_names_root names, block_empty_of_names_root joinedNames]
  rfl

theorem sorts_roots_of_names_root (names : plan.NamesRoot)
    (wholeKey : ∀ name ∈ plan.selection.entity.key, ∃ ordering ∈ plan.orderings,
      plan.selection.entity.table.columnIndex? name = some ordering.1.column) :
    plan.SortsRoots where
  ofRoots := names.orderings
  wholeKey := wholeKey

section Joining

variable (sound : database.Sound plan.selection.entity) (sorts : plan.SortsRoots)
  (names : plan.NamesRoot) (alone : plan.selection.joins = []) {joins : List Relation}
  (own : ∀ relation ∈ joins, relation ∈ plan.selection.entity.relations)

include sound names

theorem total_joining (joins : List Relation) :
    (plan.joining joins).total database = plan.total database := by
  have joinedSound : database.Sound (plan.joining joins).selection.entity := sound
  rw [total_eq joinedSound, total_eq sound, kept_rows_joining names]

include sorts alone own

/-- With the same roots on the page, joins only add to what each of them carries. -/
theorem loaded_joining :
    plan.loaded database =
        (plan.bounded (plan.keptRows database)).map (fun row => (row, plan.block database row)) ∧
      (plan.joining joins).loaded database =
        (plan.bounded (plan.keptRows database)).map fun row =>
          (row, (plan.joining joins).block database row) := by
  have joinedSound : database.Sound (plan.joining joins).selection.entity := sound
  have joinedSorts : (plan.joining joins).SortsRoots := ⟨sorts.ofRoots, sorts.wholeKey⟩
  refine ⟨loaded_eq sound sorts (by simp [alone]), ?_⟩
  rw [loaded_eq joinedSound joinedSorts own, kept_rows_joining names]
  rfl

end Joining

end Plan

/-- A record with the same entries in front, and perhaps more behind them. -/
def Extends (plain extended : Value) : Prop :=
  ∃ entries more, plain = .record entries ∧ extended = .record (entries ++ more)

theorem Plan.present_joining {plan : Plan} (alone : plan.selection.joins = [])
    (joins : List Relation) (root : Row) (rows joinedRows : List Joined) :
    Extends (plan.present (root, rows)) ((plan.joining joins).present (root, joinedRows)) := by
  refine ⟨_, _, ?_, rfl⟩
  unfold present
  rw [alone]
  exact congrArg Value.record (List.append_nil _)

theorem default_alias_apart : ∀ entity ∈ [Entity.user, Entity.order],
    ∀ relation ∈ entity.relations, Name.same "entity" relation.name = false := by
  decide +kernel

namespace Store

variable {database : Database} {entity : Entity} {rootAlias : String} {access : Access}
  {settings : Settings}

/-- Whatever a lenient request expands, it answers the roots that the same request answers without
an expansion, in the same order and with the same total. A request without an expansion that is
answered names columns of the root only, and the root's key is to be among its orderings. -/
theorem expansion_keeps_roots (options plain : List (String × Value))
    (lenient : settings.strictness = .lenient) (sound : database.Sound entity)
    (apart : ∀ relation ∈ entity.relations, Name.same rootAlias relation.name = false)
    (sameElsewhere : ∀ key ∈ [settings.filterKey, settings.orderbyKey, settings.topKey,
      settings.skipKey], Page.optionValue options key = Page.optionValue plain key)
    (without : Page.optionValue plain settings.expandKey = .null) {answer : Answer}
    (returned : (ask database entity rootAlias access settings plain).execute.2 = .ok answer)
    (wholeKey : ∀ plan,
      (ask database entity rootAlias access settings plain).apply.1.backend.selection.plan =
        .ok plan →
      ∀ name ∈ entity.key, ∃ ordering ∈ plan.orderings,
        entity.table.columnIndex? name = some ordering.1.column) :
    ∃ expanded plan expandedPlan,
      (ask database entity rootAlias access settings options).execute.2 = .ok expanded ∧
      expanded.total = answer.total ∧
      List.Forall₂ Extends answer.rows expanded.rows ∧
      (ask database entity rootAlias access settings plain).apply.1.backend.selection.plan =
        .ok plan ∧
      (ask database entity rootAlias access settings options).apply.1.backend.selection.plan =
        .ok expandedPlan ∧
      answer.rows = (plan.loaded database).map plan.present ∧
      expanded.rows = (expandedPlan.loaded database).map expandedPlan.present ∧
      (expandedPlan.loaded database).map Prod.fst = (plan.loaded database).map Prod.fst := by
  obtain ⟨predicates, sorts, expansions, plan, readFilter, readSort, readExpand, planned, rfl⟩ :=
    ask_returned returned
  have reached := (ask_executed readFilter readSort readExpand planned).1
  have unexpanded : expansions = [] := by
    have none : (ask database entity rootAlias access settings plain).request.readExpansions =
        .ok [] := by
      unfold Request.readExpansions
      change (Expansion.read access _ (Page.optionValue plain settings.expandKey)).mapError _ = _
      rw [without]
      rfl
    exact Except.ok.inj (readExpand.symm.trans none)
  subst unexpanded
  obtain ⟨_, _, _, _, ofSelection⟩ := Selection.plan_eq_ok_iff.mp planned
  have ofEntity : plan.selection.entity = entity := congrArg Selection.entity ofSelection
  have alone : plan.selection.joins = [] := congrArg Selection.joins ofSelection
  have soundPlan : database.Sound plan.selection.entity := ofEntity ▸ sound
  -- The expanding request reads the same filter, order and page.
  have expandedFilter := (same_predicates (sameElsewhere _ (by simp))).trans readFilter
  have expandedSort := (same_sorts (sameElsewhere _ (by simp))).trans readSort
  obtain ⟨_, names, _, expandedExpand⟩ :=
    (ask database entity rootAlias access settings options).request.lenient_reads_rest lenient
  have samePage : Page.ofSettings options settings = Page.ofSettings plain settings := by
    unfold Page.ofSettings Page.read
    rw [sameElsewhere settings.skipKey (by simp), sameElsewhere settings.topKey (by simp)]
  have own : ∀ relation ∈ entity.joinsWith [] names, relation ∈ entity.relations :=
    Entity.joins_with_of_entity names (by simp)
  have sortFields : ∀ named ∈ (Selection.requested entity rootAlias settings.rootAlias predicates
      sorts [] (Page.ofSettings plain settings)).orderings, '.' ∈ named.1.toList := by
    intro named member
    obtain ⟨sort, _, rfl⟩ := List.mem_map.mp member
    exact point_in_qualified _ _
  obtain ⟨expandedPlanned, namesRoot⟩ := Selection.plan_joining rfl (entity.joinsWith [] names)
    planned (fun relation joined => apart relation (own relation joined))
    (fun predicate member =>
      (Request.predicates_on_paths readFilter predicate member).point_in_field) sortFields
  rw [← Selection.requested_joining, ← samePage] at expandedPlanned
  obtain ⟨expandedReached, executed⟩ :=
    ask_executed expandedFilter expandedSort expandedExpand expandedPlanned
  have sortsRoots : plan.SortsRoots :=
    Plan.sorts_roots_of_names_root namesRoot (ofEntity ▸ wholeKey plan reached)
  have ownOfPlan : ∀ relation ∈ entity.joinsWith [] names,
      relation ∈ plan.selection.entity.relations := ofEntity ▸ own
  obtain ⟨loaded, expandedLoaded⟩ :=
    Plan.loaded_joining soundPlan sortsRoots namesRoot alone ownOfPlan
  refine ⟨_, plan, _, executed, ?_, ?_, reached, expandedReached, ?_, ?_, ?_⟩
  · exact congrArg Int.ofNat (Plan.total_joining soundPlan namesRoot _)
  · rw [Plan.answer_eq, Plan.answer_eq, loaded, expandedLoaded, List.map_map, List.map_map,
      List.forall₂_map_left_iff, List.forall₂_map_right_iff, List.forall₂_same]
    intro row _
    exact Plan.present_joining alone _ row _ _
  · rw [Plan.answer_eq]
  · rw [Plan.answer_eq]
  · rw [loaded, expandedLoaded, List.map_map, List.map_map]
    rfl

theorem sample_expansion_keeps_roots :
    let terms := [("$filter", Value.text "age gt 20"), ("$orderby", .text "age DESC, id ASC"),
      ("$top", .text "2"), ("$skip", .text "2")]
    let plain := ask Sample.database .user "entity" {} {} terms
    let expanding := ask Sample.database .user "entity" {} {}
      (terms ++ [("$expand", .text "posts, ghost, profile, posts")])
    ∃ answer expanded, plain.execute.2 = .ok answer ∧ expanding.execute.2 = .ok expanded ∧
      answer.total = 4 ∧ expanded.total = answer.total ∧
      List.Forall₂ Extends answer.rows expanded.rows := by
  intro terms plain expanding
  have counted : plain.execute.2.toOption.map Answer.total = some 4 := by decide +kernel
  obtain ⟨answer, found, four⟩ := Option.map_eq_some_iff.mp counted
  have returned : plain.execute.2 = .ok answer := ok_of_to_option found
  have wholeKey : ∀ plan, plain.apply.1.backend.selection.plan = .ok plan →
      ∀ name ∈ Entity.user.key, ∃ ordering ∈ plan.orderings,
        Entity.user.table.columnIndex? name = some ordering.1.column := by
    intro plan planned
    obtain ⟨_, _, orderings, _, _⟩ := Selection.plan_eq_ok_iff.mp planned
    have resolved : plain.apply.1.backend.selection.orderings.mapM
        plain.apply.1.backend.selection.ordering =
          .ok [(⟨0, 2, .integer⟩, .descending), (⟨0, 0, .integer⟩, .ascending)] :=
      ok_of_to_option (by decide +kernel)
    rw [resolved] at orderings
    rw [← Except.ok.inj orderings]
    decide
  obtain ⟨expanded, _, _, executed, total, extended, _⟩ := expansion_keeps_roots
    (terms ++ [("$expand", .text "posts, ghost, profile, posts")]) terms rfl sample_users_sound
    (default_alias_apart .user (by simp)) (by simp [terms, Page.optionValue, Value.lookup]) rfl
    returned wholeKey
  exact ⟨answer, expanded, returned, executed, four, total, extended⟩

end Store

end Sql

end QueryOptions
