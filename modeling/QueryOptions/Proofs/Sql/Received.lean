import Mathlib.Data.List.Nodup
import QueryOptions.Proofs.Request.Stages
import QueryOptions.Sql.Execution

/-!
What a request leaves in a selection, and when a selection has a plan. The calls of a request come
in groups, each of which fills one part of the selection, and a plan is the resolved selection.
-/

namespace QueryOptions.Sql

namespace Entity

def joinsWith (entity : Entity) : List Relation → List String → List Relation
  | joins, [] => joins
  | joins, name :: names =>
      match entity.relation? name with
      | none => entity.joinsWith joins names
      | some relation =>
          entity.joinsWith (if joins.contains relation then joins else joins ++ [relation]) names

theorem joins_with_cons (entity : Entity) (joins : List Relation) (name : String)
    (names : List String) :
    entity.joinsWith joins (name :: names) =
      entity.joinsWith (entity.joinsWith joins [name]) names := by
  simp only [joinsWith]
  cases entity.relation? name <;> rfl

theorem joins_with_of_entity {entity : Entity} {joins : List Relation} (names : List String)
    (own : ∀ relation ∈ joins, relation ∈ entity.relations) :
    ∀ relation ∈ entity.joinsWith joins names, relation ∈ entity.relations := by
  induction names generalizing joins with
  | nil => exact own
  | cons name names induction =>
      unfold joinsWith
      split
      · exact induction own
      · rename_i found known
        apply induction
        intro relation member
        split at member
        · exact own relation member
        · rcases List.mem_append.mp member with earlier | new
          · exact own relation earlier
          · rw [List.mem_singleton.mp new]
            exact List.mem_of_find?_eq_some known

end Entity

theorem map_m_of_ok {ε α β : Type} {read : α → Except ε β} {part : α → β} {items : List α}
    (reads : ∀ item ∈ items, read item = .ok (part item)) :
    items.mapM read = .ok (items.map part) := by
  induction items with
  | nil => rfl
  | cons item items induction =>
      rw [List.mapM_cons, reads item List.mem_cons_self,
        induction fun other member => reads other (List.mem_cons_of_mem item member)]
      rfl

namespace Selection

theorem receive_predicates (selection : Selection) (predicates : List Predicate) :
    (predicates.map Call.addPredicate).foldl receive selection =
      { selection with predicates := selection.predicates ++ predicates } := by
  induction predicates generalizing selection with
  | nil => simp
  | cons predicate predicates induction =>
      rw [List.map_cons, List.foldl_cons, induction]
      simp [receive]

theorem receive_sorts (selection : Selection) (rootAlias : String) (sorts : List SortKey) :
    (sorts.map fun sort =>
        Call.addOrdering (qualifyField sort.field rootAlias) sort.direction).foldl receive
          selection =
      { selection with
        orderings := selection.orderings ++ sorts.map fun sort =>
          (qualifyField sort.field rootAlias, sort.direction) } := by
  induction sorts generalizing selection with
  | nil => simp
  | cons sort sorts induction =>
      rw [List.map_cons, List.foldl_cons, induction]
      simp [receive]

theorem expand_eq (selection : Selection) (name : String) :
    selection.expand name =
      { selection with joins := selection.entity.joinsWith selection.joins [name] } := by
  unfold expand
  simp only [Entity.joinsWith]
  cases selection.entity.relation? name with
  | none => rfl
  | some relation =>
      by_cases joined : selection.joins.contains relation = true
      · simp only [joined, if_true]
      · simp only [joined, Bool.false_eq_true, if_false]

theorem receive_expansions (selection : Selection) (names : List String) :
    (names.map Call.addExpansion).foldl receive selection =
      { selection with joins := selection.entity.joinsWith selection.joins names } := by
  induction names generalizing selection with
  | nil => rfl
  | cons name names induction =>
      rw [List.map_cons, List.foldl_cons, induction, Entity.joins_with_cons]
      change { selection.expand name with
        joins := (selection.expand name).entity.joinsWith (selection.expand name).joins names } = _
      rw [expand_eq]

theorem receive_page (selection : Selection) (page : Page) :
    (Request.pageCalls page).foldl receive selection =
      { selection with
        limit := if 0 < page.limit then some page.limit else selection.limit
        offset := if 0 < page.skip then some page.skip else selection.offset } := by
  unfold Request.pageCalls
  by_cases limited : 0 < page.limit
  · by_cases skipped : 0 < page.skip <;> simp [limited, skipped, receive]
  · by_cases skipped : 0 < page.skip <;> simp [limited, skipped, receive]

def requested (entity : Entity) (rootAlias qualifier : String) (predicates : List Predicate)
    (sorts : List SortKey) (expansions : List String) (page : Page) : Selection where
  entity := entity
  rootAlias := rootAlias
  predicates := predicates
  orderings := sorts.map fun sort => (qualifyField sort.field qualifier, sort.direction)
  joins := entity.joinsWith [] expansions
  limit := if 0 < page.limit then some page.limit else none
  offset := if 0 < page.skip then some page.skip else none

theorem receive_request (entity : Entity) (rootAlias : String) (request : Request)
    (predicates : List Predicate) (sorts : List SortKey) (expansions : List String)
    (page : Page) :
    (predicates.map Call.addPredicate ++ request.restCalls sorts expansions page).foldl receive
        { entity := entity, rootAlias := rootAlias } =
      requested entity rootAlias request.settings.rootAlias predicates sorts expansions page := by
  unfold Request.restCalls
  rw [List.foldl_append, receive_predicates, List.foldl_append, receive_sorts, List.foldl_append,
    receive_expansions, receive_page]
  rfl

theorem bindings_of_distinct {selection : Selection}
    (distinct : ((selection.predicates.filterMap (·.binding)).map (·.name)).Nodup) :
    selection.bindings = selection.predicates.filterMap (·.binding) := by
  have general : ∀ added earlier : List Binding,
      ((earlier ++ added).map (·.name)).Nodup →
        added.foldl (fun bindings binding =>
            bindings.filter (fun other => other.name ≠ binding.name) ++ [binding]) earlier =
          earlier ++ added := by
    intro added
    induction added with
    | nil => simp
    | cons binding added induction =>
        intro earlier apart
        have others : ∀ other ∈ earlier, other.name ≠ binding.name := by
          rw [List.map_append, List.nodup_append] at apart
          intro other member
          exact apart.2.2 _ (List.mem_map_of_mem member) _ (by simp)
        have kept : earlier.filter (fun other => other.name ≠ binding.name) = earlier :=
          List.filter_eq_self.mpr fun other member => decide_eq_true (others other member)
        rw [List.foldl_cons, kept, induction (earlier ++ [binding]) (by simpa using apart)]
        simp
  have all := general (selection.predicates.filterMap (·.binding)) [] (by simpa using distinct)
  rwa [List.nil_append] at all

theorem operand_of_distinct {selection : Selection} {predicate : Predicate}
    (distinct : ((selection.predicates.filterMap (·.binding)).map (·.name)).Nodup)
    (member : predicate ∈ selection.predicates) :
    selection.operand predicate =
      match predicate.binding with
      | some binding => .ofLiteral binding.literal
      | none => .null := by
  unfold operand
  cases bound : predicate.binding with
  | none => rfl
  | some binding =>
      have known : binding ∈ selection.predicates.filterMap (·.binding) :=
        List.mem_filterMap.mpr ⟨predicate, member, bound⟩
      have found : (selection.bindings.find? fun other => other.name = binding.name) =
          some binding := by
        rw [bindings_of_distinct distinct]
        cases first : (selection.predicates.filterMap (·.binding)).find?
            fun other => other.name = binding.name with
        | none =>
            have different := List.find?_eq_none.mp first binding known
            simp at different
        | some other =>
            have sameName : other.name = binding.name := by simpa using List.find?_some first
            have otherKnown := List.mem_of_find?_eq_some first
            rw [List.inj_on_of_nodup_map distinct otherKnown known sameName]
      simp only [found]

def condition (selection : Selection) (predicate : Predicate) :
    Except Failure BoundCondition := do
  let column ← ColumnRef.resolve selection.sources predicate.field
  return ⟨column, predicate.operator, selection.operand predicate⟩

def ordering (selection : Selection) (named : String × Direction) :
    Except Failure (ColumnRef × Direction) := do
  return (← ColumnRef.resolve selection.sources named.1, named.2)

theorem plan_eq_ok_iff {selection : Selection} {plan : Plan} :
    selection.plan = .ok plan ↔
      selection.ambiguousAlias? = none ∧
        selection.predicates.mapM selection.condition = .ok plan.conditions ∧
        selection.orderings.mapM selection.ordering = .ok plan.orderings ∧
        selection.oversized? = none ∧ plan.selection = selection := by
  unfold Selection.plan
  cases ambiguous : selection.ambiguousAlias? with
  | some name =>
      constructor
      · intro planned
        cases planned
      · rintro ⟨none, _⟩
        cases none
  | none =>
      change (selection.predicates.mapM selection.condition >>= fun conditions =>
        selection.orderings.mapM selection.ordering >>= fun orderings => _) = .ok plan ↔ _
      cases selection.predicates.mapM selection.condition with
      | error failure => simp [bind, Except.bind]
      | ok conditions =>
          cases selection.orderings.mapM selection.ordering with
          | error failure => simp [bind, Except.bind]
          | ok orderings =>
              cases selection.oversized? with
              | some value => simp [bind, Except.bind]
              | none =>
                  constructor
                  · intro planned
                    cases planned
                    exact ⟨rfl, rfl, rfl, rfl, rfl⟩
                  · rintro ⟨_, sameConditions, sameOrderings, _, rfl⟩
                    cases sameConditions
                    cases sameOrderings
                    rfl

end Selection

namespace Store

theorem receive_all_eq (store : Store) (calls : List Call) :
    Backend.receiveAll store calls =
      ⟨store.database, calls.foldl Selection.receive store.selection⟩ := by
  unfold Backend.receiveAll
  induction calls generalizing store with
  | nil => rfl
  | cons call calls induction => exact induction (Backend.receive store call)

end Store

end QueryOptions.Sql
