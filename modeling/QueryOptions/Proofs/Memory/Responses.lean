import QueryOptions.Proofs.Memory.Permutation
import QueryOptions.Proofs.Memory.Received
import QueryOptions.Proofs.Request.HeldTexts
import QueryOptions.Proofs.Session.Steps

/-!
What a fresh request to a collection responds. Expansions are written down and change nothing, so
the response is the page of the ordered rows, described together with their number.
-/

namespace QueryOptions.Memory.Collection

theorem receive_expansions (collection : Collection) (expansions : List String) :
    ∃ known, (expansions.map Call.addExpansion).foldl receive collection =
      { collection with expansions := known } := by
  induction expansions generalizing collection with
  | nil => exact ⟨collection.expansions, rfl⟩
  | cons relation expansions induction =>
      rw [List.map_cons, List.foldl_cons]
      obtain ⟨known, received⟩ := induction (collection.receive (.addExpansion relation))
      refine ⟨known, received.trans ?_⟩
      unfold receive
      dsimp only
      split <;> rfl

theorem receive_expanding_request (rows : List Value) (rootAlias : String) (request : Request)
    (predicates : List Predicate) (sorts : List SortKey) (expansions : List String) (page : Page) :
    ∃ known, (predicates.map Call.addPredicate ++
        request.restCalls sorts expansions page).foldl receive
          { rows := rows, rootAlias := rootAlias } =
      { requested rows rootAlias request.settings.rootAlias predicates sorts page with
        expansions := known } := by
  unfold Request.restCalls
  rw [List.foldl_append, receive_predicates, List.foldl_append, receive_sorts, List.foldl_append]
  obtain ⟨known, received⟩ := receive_expansions _ expansions
  refine ⟨known, ?_⟩
  rw [received, receive_page]
  rfl

variable [Attributes]

/-- Bounds have no part in the order, and cut the page out of what has been ordered. -/
theorem requested_executes {rows ordered : List Value} {rootAlias qualifier : String}
    {predicates : List Predicate} {sorts : List SortKey} {page : Page}
    (testable : (requested rows rootAlias qualifier predicates sorts page).isTestable = true)
    (sorted : (requested rows rootAlias qualifier predicates sorts page).ordered = .ok ordered)
    (skipNonneg : 0 ≤ page.skip) (limitNonneg : 0 ≤ page.limit) :
    (requested rows rootAlias qualifier predicates sorts page).execute =
      .ok ⟨page.slice ordered, ordered.length⟩ := by
  unfold execute
  rw [if_pos testable, sorted]
  dsimp only
  rw [bounded_eq_slice skipNonneg limitNonneg rfl rfl, (ordered_perm sorted).length_eq]

theorem ordered_of_execute {collection : Collection} {answer : Answer}
    (returned : collection.execute = .ok answer) :
    ∃ ordered, collection.isTestable = true ∧ collection.ordered = .ok ordered := by
  unfold execute at returned
  split at returned
  · rename_i testable
    cases sorted : collection.ordered with
    | error failure =>
        rw [sorted] at returned
        cases returned
    | ok ordered => exact ⟨ordered, testable, rfl⟩
  · cases returned

/-- All rows that a request asks for, in order, whatever page of them it takes. -/
def Gives (rows : List Value) (rootAlias : String) (access : Access) (settings : Settings)
    (options : List (String × Value)) (ordered : List Value) : Prop :=
  ∃ predicates sorts expansions,
    (ask rows rootAlias access settings options).request.readPredicates = .ok predicates ∧
    (ask rows rootAlias access settings options).request.readSorts = .ok sorts ∧
    (ask rows rootAlias access settings options).request.readExpansions = .ok expansions ∧
    (requested rows rootAlias settings.rootAlias predicates sorts
      (Page.ofSettings options settings)).isTestable = true ∧
    (requested rows rootAlias settings.rootAlias predicates sorts
      (Page.ofSettings options settings)).ordered = .ok ordered

section Fresh

variable {rows ordered : List Value} {rootAlias : String} {access : Access} {settings : Settings}
  {options : List (String × Value)}

section Reads

variable {predicates : List Predicate} {sorts : List SortKey} {expansions : List String}
  (readFilter : (ask rows rootAlias access settings options).request.readPredicates =
    .ok predicates)
  (readSort : (ask rows rootAlias access settings options).request.readSorts = .ok sorts)
  (readExpand : (ask rows rootAlias access settings options).request.readExpansions =
    .ok expansions)

include readFilter readSort readExpand

theorem ask_leaves :
    ∃ known, (ask rows rootAlias access settings options).apply =
      (⟨{ options, access, settings, predicates, sorts, expansions,
          page := some (Page.ofSettings options settings) },
        { requested rows rootAlias settings.rootAlias predicates sorts
            (Page.ofSettings options settings) with expansions := known }⟩,
        .ok (Page.ofSettings options settings)) := by
  have applied := Request.apply_of_reads (ask rows rootAlias access settings options).request rfl
    readFilter readSort readExpand
  obtain ⟨known, received⟩ := receive_expanding_request rows rootAlias
    (ask rows rootAlias access settings options).request predicates sorts expansions
    (Page.ofSettings options settings)
  refine ⟨known, ?_⟩
  rw [Session.apply, applied]
  exact congrArg (fun collection => (Session.mk _ collection, Except.ok _)) received

theorem ask_applies :
    (ask rows rootAlias access settings options).apply.2 =
        .ok (Page.ofSettings options settings) ∧
      (Backend.execute (ask rows rootAlias access settings options).apply.1.backend).2 =
        (requested rows rootAlias settings.rootAlias predicates sorts
          (Page.ofSettings options settings)).execute := by
  obtain ⟨known, left⟩ := ask_leaves readFilter readSort readExpand
  rw [left]
  exact ⟨rfl, rfl⟩

end Reads

namespace Gives

theorem executes (gives : Gives rows rootAlias access settings options ordered) :
    (ask rows rootAlias access settings options).execute.2 =
      .ok ⟨(Page.ofSettings options settings).slice ordered, ordered.length⟩ := by
  obtain ⟨predicates, sorts, expansions, readFilter, readSort, readExpand, testable, sorted⟩ := gives
  obtain ⟨skipNonneg, limitNonneg⟩ := Page.of_settings_nonneg options settings
  obtain ⟨applies, executes⟩ := ask_applies readFilter readSort readExpand
  rw [Session.execute_of_ok applies, executes, requested_executes testable sorted skipNonneg limitNonneg]

theorem responds (gives : Gives rows rootAlias access settings options ordered) :
    (ask rows rootAlias access settings options).respond.2 =
      .ok (Envelope.build ((Page.ofSettings options settings).slice ordered) ordered.length
        (Page.ofSettings options settings).skip (Page.ofSettings options settings).limit) := by
  obtain ⟨predicates, sorts, expansions, readFilter, readSort, readExpand, testable, sorted⟩ := gives
  obtain ⟨skipNonneg, limitNonneg⟩ := Page.of_settings_nonneg options settings
  obtain ⟨applies, executes⟩ := ask_applies readFilter readSort readExpand
  rw [Session.respond_of_ok applies, executes,
    requested_executes testable sorted skipNonneg limitNonneg]
  rfl

theorem length_le (gives : Gives rows rootAlias access settings options ordered) :
    ordered.length ≤ rows.length := by
  obtain ⟨predicates, sorts, _, _, _, _, _, sorted⟩ := gives
  rw [(ordered_perm sorted).length_eq]
  exact List.length_filter_le _ rows

/-- The rows do not depend on the ceiling of the page size, nor on options other than those of the
filter, the order and the expansion. -/
theorem of_same_terms (gives : Gives rows rootAlias access settings options ordered)
    (ceiling : Option Int) {others : List (String × Value)}
    (held : ∀ key ∈ settings.termKeys,
      (Page.optionValue options key).heldText = (Page.optionValue others key).heldText) :
    Gives rows rootAlias access { settings with maxTop := ceiling } others ordered := by
  obtain ⟨predicates, sorts, expansions, readFilter, readSort, readExpand, given⟩ := gives
  obtain ⟨sameFilter, sameSort, sameExpand⟩ := Request.reads_of_held_texts
    (ask rows rootAlias access settings options).request
    (ask rows rootAlias access settings others).request rfl rfl held
  exact ⟨predicates, sorts, expansions, sameFilter.symm.trans readFilter,
    sameSort.symm.trans readSort, sameExpand.symm.trans readExpand, given⟩

end Gives

theorem reads_of_execution {answer : Answer}
    (returned : (ask rows rootAlias access settings options).execute.2 = .ok answer) :
    ∃ predicates sorts expansions ordered,
      (ask rows rootAlias access settings options).request.readPredicates = .ok predicates ∧
      (ask rows rootAlias access settings options).request.readSorts = .ok sorts ∧
      (ask rows rootAlias access settings options).request.readExpansions = .ok expansions ∧
      (requested rows rootAlias settings.rootAlias predicates sorts
        (Page.ofSettings options settings)).isTestable = true ∧
      (requested rows rootAlias settings.rootAlias predicates sorts
        (Page.ofSettings options settings)).ordered = .ok ordered := by
  cases applied : (ask rows rootAlias access settings options).apply.2 with
  | error failure =>
      rw [Session.execute_of_error applied] at returned
      cases returned
  | ok page =>
      obtain ⟨predicates, sorts, expansions, readFilter, readSort, readExpand, rfl⟩ :=
        Request.apply_returns _ rfl applied
      obtain ⟨_, executes⟩ := ask_applies readFilter readSort readExpand
      rw [Session.execute_of_ok applied, executes] at returned
      obtain ⟨ordered, testable, sorted⟩ := ordered_of_execute returned
      exact ⟨predicates, sorts, expansions, ordered, readFilter, readSort, readExpand, testable,
        sorted⟩

theorem gives_of_execution {answer : Answer}
    (returned : (ask rows rootAlias access settings options).execute.2 = .ok answer) :
    ∃ ordered, Gives rows rootAlias access settings options ordered := by
  obtain ⟨predicates, sorts, expansions, ordered, reads⟩ := reads_of_execution returned
  exact ⟨ordered, predicates, sorts, expansions, reads⟩

theorem gives_of_response {envelope : Envelope}
    (responds : (ask rows rootAlias access settings options).respond.2 = .ok envelope) :
    ∃ ordered, Gives rows rootAlias access settings options ordered := by
  obtain ⟨_, _, _, returned, _⟩ := Session.envelope_of_respond responds
  exact gives_of_execution returned

end Fresh

end QueryOptions.Memory.Collection
