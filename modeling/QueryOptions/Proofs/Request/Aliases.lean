import QueryOptions.Proofs.Memory.Conjunction
import QueryOptions.Proofs.Memory.Inside
import QueryOptions.Proofs.Request.Dropping

/-!
Requests that differ in the alias of the root. A request qualifies its fields by the alias, so its
calls carry it; cut off again, they ask the same of the rows. The stages of two such requests end
alike and make calls that ask the same, provided that no field starts with either alias.
-/

namespace QueryOptions

def Settings.withAlias (settings : Settings) (rootAlias : String) : Settings :=
  { settings with rootAlias := rootAlias }

def Scope.withAlias (scope : Scope) (rootAlias : String) : Scope :=
  { scope with rootAlias := rootAlias }

/-- The fields that the filter and the order of some options name. -/
def namedFields (settings : Settings) (options : List (String × Value)) : List String :=
  (((Page.optionValue options settings.filterKey).parts Filter.fragments).filterMap fun fragment =>
    (Grammar.standard.readClause fragment.toList 0).map (·.field)) ++
  (((Page.optionValue options settings.orderbyKey).parts fun text =>
      Text.splitAtChar ',' text.toList).filterMap fun entry =>
    (SortKey.ofWords? (Text.words entry)).map (·.field))

/-- No field starts with the alias and a point; a bare one could not anyway. -/
def IsApart (rootAlias : String) (fields : List String) : Prop :=
  ∀ field ∈ fields, ¬(rootAlias ++ ".").toList <+: field.toList

instance (rootAlias : String) (fields : List String) : Decidable (IsApart rootAlias fields) :=
  inferInstanceAs (Decidable (∀ field ∈ fields, _))

section Named

variable {settings : Settings} {options : List (String × Value)} {strictness : Strictness}

theorem clause_field_named {clauses : List Clause}
    (read : Filter.read .standard strictness (Page.optionValue options settings.filterKey) =
      .ok clauses) {clause : Clause} (member : clause ∈ clauses) :
    clause.field ∈ namedFields settings options := by
  rw [Filter.read_eq_read_fragments] at read
  obtain ⟨index, fragment, known, found⟩ := (Filter.mem_read_fragments read clause).mp member
  rw [Grammar.read_clause_moved] at found
  obtain ⟨first, foundFirst, rfl⟩ := Option.map_eq_some_iff.mp found
  refine List.mem_append_left _ (List.mem_filterMap.mpr ⟨fragment, List.mem_of_getElem? known, ?_⟩)
  rw [foundFirst]
  rfl

theorem sort_field_named {access : Access} {sorts : List SortKey}
    (read : SortKey.read access strictness (Page.optionValue options settings.orderbyKey) =
      .ok sorts) {sort : SortKey} (member : sort ∈ sorts) :
    sort.field ∈ namedFields settings options := by
  rw [SortKey.read_eq_read_entries] at read
  have lenient : SortKey.readEntries access .lenient
      ((Page.optionValue options settings.orderbyKey).parts fun text =>
        Text.splitAtChar ',' text.toList) = .ok sorts := by
    cases strictness with
    | lenient => exact read
    | strict => exact (SortKey.read_entries_tighten access _).ok_of_ok read
  rw [SortKey.read_entries_lenient] at lenient
  cases lenient
  obtain ⟨entry, known, found⟩ := List.mem_filterMap.mp member
  obtain ⟨direction, words, path, upper, _⟩ := (SortKey.admits_sort_iff access entry sort).mpr found
  refine List.mem_append_right _ (List.mem_filterMap.mpr ⟨entry, known, ?_⟩)
  rw [(SortKey.of_words_iff _ sort).mpr ⟨direction, words, path, upper⟩]
  rfl

end Named

def Access.takes (access : Access) (clause : Clause) : Bool :=
  Identifier.isPath clause.field && access.allowsFilter clause.field

theorem Access.takes_iff (access : Access) (clause : Clause) :
    access.takes clause = true ↔
      Identifier.isPath clause.field = true ∧ access.filterable.Opens clause.field := by
  rw [takes, Bool.and_eq_true, allowsFilter, admits_iff_opens]

namespace Scope

open Memory

theorem map_taken {ε α β : Type} (f : α → β) (first : Except ε (Option α))
    (rest : Except ε (List α)) :
    (do return (← first).toList ++ (← rest)).map (List.map f) =
      (do return (← first.map (Option.map f)).toList ++ (← rest.map (List.map f))) := by
  cases first with
  | error failure => rfl
  | ok part =>
      cases rest with
      | error failure => rfl
      | ok parts => cases part <;> rfl

variable (scope : Scope) {left right : String}

theorem resolve_inner {clause : Clause} (leftApart : ¬(left ++ ".").toList <+: clause.field.toList)
    (rightApart : ¬(right ++ ".").toList <+: clause.field.toList) :
    ((scope.withAlias left).resolve clause).map (Option.map (Condition.inner left)) =
      ((scope.withAlias right).resolve clause).map (Option.map (Condition.inner right)) := by
  have sameCheck (rootAlias : String) :
      (scope.withAlias rootAlias).authorise clause.field = scope.authorise clause.field := rfl
  have samePolicy (rootAlias : String) :
      (scope.withAlias rootAlias).strictness = scope.strictness := rfl
  unfold resolve predicate
  simp only [sameCheck, samePolicy]
  cases scope.strictness.settle (scope.authorise clause.field) with
  | error rejection => rfl
  | ok authorised =>
      cases authorised with
      | none => rfl
      | some _ =>
          cases clause.operator.bind (clause.rawValue.getD "") with
          | error failure => rfl
          | ok literal =>
              -- The predicates differ in the field alone, whatever the literal is.
              have path := path_alike leftApart rightApart
              exact congrArg (fun path => Except.ok (some { Condition.ofPredicate _ with
                field := path })) path

theorem resolve_all_inner {clauses : List Clause}
    (leftApart : ∀ clause ∈ clauses, ¬(left ++ ".").toList <+: clause.field.toList)
    (rightApart : ∀ clause ∈ clauses, ¬(right ++ ".").toList <+: clause.field.toList) :
    ((scope.withAlias left).resolveAll clauses).map (List.map (Condition.inner left)) =
      ((scope.withAlias right).resolveAll clauses).map (List.map (Condition.inner right)) := by
  induction clauses with
  | nil => rfl
  | cons clause clauses induction =>
      have head := scope.resolve_inner (leftApart clause List.mem_cons_self)
        (rightApart clause List.mem_cons_self)
      have rest := induction
        (fun other member => leftApart other (List.mem_cons_of_mem clause member))
        fun other member => rightApart other (List.mem_cons_of_mem clause member)
      rw [resolveAll, resolveAll, map_taken, map_taken, head, rest]

theorem resolve_all_fields {clauses : List Clause} {predicates : List Predicate}
    (resolved : scope.resolveAll clauses = .ok predicates) :
    predicates.map (fun predicate => (predicate.operator, predicate.field)) =
      (clauses.filter scope.access.takes).map fun clause =>
        (clause.operator, qualifyField clause.field scope.rootAlias) := by
  induction clauses generalizing predicates with
  | nil =>
      cases resolved
      rfl
  | cons clause clauses induction =>
      obtain ⟨part, resolvedHead, resolved⟩ := parts_of_bind resolved
      obtain ⟨rest, resolvedRest, same⟩ := parts_of_bind resolved
      cases same
      have takes := scope.access.takes_iff clause
      rcases resolve_outcome resolvedHead with ⟨predicate, rfl, admitted, built⟩ | ⟨rfl, refused⟩
      · rw [List.filter_cons_of_pos (takes.mpr admitted), List.map_cons, ← predicate_field built,
          ← (binding_of_predicate built).1]
        exact congrArg _ (induction resolvedRest)
      · rw [List.filter_cons_of_neg (mt takes.mp refused)]
        exact induction resolvedRest

end Scope

namespace Request

open Memory

theorem predicate_calls_alike {leftAlias rightAlias : String} {predicates others : List Predicate}
    (inner : predicates.map (Condition.inner leftAlias) =
      others.map (Condition.inner rightAlias)) :
    SameCalls leftAlias rightAlias (predicates.map .addPredicate) (others.map .addPredicate) := by
  rw [← List.forall₂_eq_eq_eq, List.forall₂_map_left_iff, List.forall₂_map_right_iff] at inner
  rw [SameCalls, List.forall₂_map_left_iff, List.forall₂_map_right_iff]
  exact inner.imp fun _ _ alike => .predicate alike

theorem expansion_calls_alike (leftAlias rightAlias : String) (expansions : List String) :
    SameCalls leftAlias rightAlias (expansions.map .addExpansion)
      (expansions.map .addExpansion) := by
  refine List.forall₂_same.mpr fun call member => ?_
  obtain ⟨relation, _, rfl⟩ := List.mem_map.mp member
  exact .expansion relation

theorem page_calls_alike (leftAlias rightAlias : String) (page : Page) :
    SameCalls leftAlias rightAlias (pageCalls page) (pageCalls page) := by
  unfold pageCalls
  refine List.forall₂_same.mpr fun call member => ?_
  rcases List.mem_append.mp member with limits | skips
  · split at limits
    · cases List.mem_singleton.mp limits
      exact .limit page.limit
    · cases limits
  · split at skips
    · cases List.mem_singleton.mp skips
      exact .offset page.skip
    · cases skips

/-- Requests that differ at most in the alias of the root and in what they hold on account of it. -/
structure ButAlias (left right : Request) : Prop where
  options : left.options = right.options
  access : left.access = right.access
  settings : left.settings = right.settings.withAlias left.settings.rootAlias
  page : left.page = right.page

def IsApartFromFields (request : Request) : Prop :=
  IsApart request.settings.rootAlias (namedFields request.settings request.options)

namespace ButAlias

variable {left right : Request} (same : ButAlias left right)

include same

theorem option_eq (key : Settings → String)
    (unaliased : ∀ settings rootAlias, key (settings.withAlias rootAlias) = key settings) :
    left.option (key left.settings) = right.option (key right.settings) := by
  unfold option
  rw [same.options, same.settings, unaliased]

theorem strictness : left.settings.strictness = right.settings.strictness := by
  rw [same.settings]
  rfl

theorem read_sorts : left.readSorts = right.readSorts := by
  unfold readSorts
  rw [same.option_eq Settings.orderbyKey fun _ _ => rfl, same.access, same.strictness]

theorem read_expansions : left.readExpansions = right.readExpansions := by
  unfold readExpansions
  rw [same.option_eq Settings.expandKey fun _ _ => rfl, same.access, same.strictness]

theorem same_page :
    Page.ofSettings left.options left.settings = Page.ofSettings right.options right.settings := by
  rw [same.options, same.settings]
  rfl

theorem same_fields :
    namedFields left.settings left.options = namedFields right.settings right.options := by
  rw [same.options, same.settings]
  rfl

section Apart

variable (leftApart : left.IsApartFromFields) (rightApart : right.IsApartFromFields)

include leftApart rightApart

theorem read_predicates :
    left.readPredicates.map (List.map (Condition.inner left.settings.rootAlias)) =
      right.readPredicates.map (List.map (Condition.inner right.settings.rootAlias)) := by
  have leftScope : left.scope = right.scope.withAlias left.settings.rootAlias := by
    unfold scope Scope.withAlias
    rw [same.access, same.strictness]
  have sameRead : Filter.read .standard left.settings.strictness
        (left.option left.settings.filterKey) =
      Filter.read .standard right.settings.strictness (right.option right.settings.filterKey) := by
    rw [same.option_eq Settings.filterKey fun _ _ => rfl, same.strictness]
  rw [read_predicates_eq, read_predicates_eq, leftScope, sameRead]
  cases read : Filter.read .standard right.settings.strictness
      (right.option right.settings.filterKey) with
  | error rejection =>
      -- A failure is out of reach of the maps, which need not be compared.
      change Except.error (Failure.rejected rejection) = Except.error (Failure.rejected rejection)
      rfl
  | ok clauses =>
      have resolved := right.scope.resolve_all_inner
        (fun clause member => leftApart clause.field
          (same.same_fields ▸ clause_field_named read member))
        fun clause member => rightApart clause.field (clause_field_named read member)
      change Except.map _ (Except.mapError _ _) = Except.map _ (Except.mapError _ _)
      rw [map_of_map_error, map_of_map_error, resolved]
      rfl

theorem orderings_alike {sorts : List SortKey} (read : right.readSorts = .ok sorts) :
    SameCalls left.settings.rootAlias right.settings.rootAlias
      (sorts.map fun sort =>
        .addOrdering (qualifyField sort.field left.settings.rootAlias) sort.direction)
      (sorts.map fun sort =>
        .addOrdering (qualifyField sort.field right.settings.rootAlias) sort.direction) := by
  rw [SameCalls, List.forall₂_map_left_iff, List.forall₂_map_right_iff]
  refine List.forall₂_same.mpr fun sort member => ?_
  have named := sort_field_named (ok_of_map_error read) member
  exact .ordering sort.direction (path_alike
    (leftApart sort.field (same.same_fields ▸ named)) (rightApart sort.field named))

theorem apply_rest :
    SameCalls left.settings.rootAlias right.settings.rootAlias left.applyRest.calls
      right.applyRest.calls ∧
      left.applyRest.result = right.applyRest.result ∧
      ButAlias left.applyRest.request right.applyRest.request := by
  have expansionsAfter (request : Request) (sorts : List SortKey) :
      readExpansions { request with sorts := sorts } = request.readExpansions := rfl
  unfold applyRest applySorts
  rw [same.read_sorts]
  cases readSort : right.readSorts with
  | error failure => exact ⟨.nil, rfl, same⟩
  | ok sorts =>
      have orderings := same.orderings_alike leftApart rightApart readSort
      simp only [Stage.andThen, applyExpansions, expansionsAfter, same.read_expansions]
      cases right.readExpansions with
      | error failure =>
          refine ⟨List.rel_append orderings .nil, rfl, ?_⟩
          exact ⟨same.options, same.access, same.settings, same.page⟩
      | ok expansions =>
          have expanding := expansion_calls_alike left.settings.rootAlias
            right.settings.rootAlias expansions
          have paging := page_calls_alike left.settings.rootAlias right.settings.rootAlias
            (Page.ofSettings right.options right.settings)
          simp only [applyPage, same.same_page]
          refine ⟨List.rel_append orderings (List.rel_append expanding paging), trivial, ?_⟩
          exact ⟨same.options, same.access, same.settings, rfl⟩

theorem apply :
    SameCalls left.settings.rootAlias right.settings.rootAlias left.apply.calls
      right.apply.calls ∧
      left.apply.result = right.apply.result ∧
      ButAlias left.apply.request right.apply.request := by
  cases known : right.page with
  | some page =>
      rw [apply_again known, apply_again (same.page.trans known)]
      exact ⟨.nil, rfl, same⟩
  | none =>
      rw [right.apply_fresh known, left.apply_fresh (same.page.trans known)]
      rcases outcomes_of_map_eq (same.read_predicates leftApart rightApart) with
          ⟨failure, readLeft, readRight⟩ | ⟨predicates, others, readLeft, readRight, inner⟩
      · rw [readLeft, readRight]
        exact ⟨.nil, rfl, same⟩
      · obtain ⟨restCalls, restResult, restSame⟩ := same.apply_rest leftApart rightApart
        rw [readLeft, readRight]
        refine ⟨List.rel_append (predicate_calls_alike inner) restCalls, restResult, ?_⟩
        exact ⟨restSame.options, restSame.access, restSame.settings, restSame.page⟩

end Apart

end ButAlias

end Request

end QueryOptions
