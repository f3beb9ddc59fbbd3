import QueryOptions.Request

/-!
What applying a request does, stage by stage. The filter comes first and the other stages never
look at its predicates, so a fresh request is applied as its filter followed by an independent rest.
-/

namespace QueryOptions.Request

section Reads

variable {left right : Request} (access : left.access = right.access)
  (settings : left.settings = right.settings)

include access settings

theorem read_predicates_congr
    (filter : left.option left.settings.filterKey = right.option left.settings.filterKey) :
    left.readPredicates = right.readPredicates := by
  unfold readPredicates scope
  rw [filter, access, settings]

theorem read_sorts_congr
    (orderby : left.option left.settings.orderbyKey = right.option left.settings.orderbyKey) :
    left.readSorts = right.readSorts := by
  unfold readSorts
  rw [orderby, access, settings]

theorem read_expansions_congr
    (expand : left.option left.settings.expandKey = right.option left.settings.expandKey) :
    left.readExpansions = right.readExpansions := by
  unfold readExpansions
  rw [expand, access, settings]

end Reads

theorem read_predicates_eq (request : Request) :
    request.readPredicates =
      ((Filter.read .standard request.settings.strictness
        (request.option request.settings.filterKey)).mapError .rejected).bind fun clauses =>
          (request.scope.resolveAll clauses).mapError ClauseFailure.toFailure := by
  unfold readPredicates
  cases Filter.read .standard request.settings.strictness
      (request.option request.settings.filterKey) with
  | error rejection => rfl
  | ok clauses =>
      change _ = Except.mapError _ (request.scope.resolveAll clauses)
      dsimp only
      cases request.scope.resolveAll clauses <;> rfl

theorem read_predicates_iff (request : Request) (predicates : List Predicate) :
    request.readPredicates = .ok predicates ↔ ∃ clauses,
      Filter.read .standard request.settings.strictness
        (request.option request.settings.filterKey) = .ok clauses ∧
      request.scope.resolveAll clauses = .ok predicates := by
  unfold readPredicates
  cases Filter.read .standard request.settings.strictness
      (request.option request.settings.filterKey) with
  | error rejection => simp
  | ok clauses => cases resolved : request.scope.resolveAll clauses <;> simp [resolved]

/-- The stages after the filter. -/
def applyRest (request : Request) : Stage Page :=
  request.applySorts.andThen fun request _ =>
    request.applyExpansions.andThen fun request _ => request.applyPage

def restCalls (request : Request) (sorts : List SortKey) (expansions : List String)
    (page : Page) : List Call :=
  (sorts.map fun sort =>
      .addOrdering (qualifyField sort.field request.settings.rootAlias) sort.direction) ++
    (expansions.map .addExpansion ++ pageCalls page)

theorem apply_rest_with_predicates (request : Request) (predicates : List Predicate) :
    applyRest { request with predicates := predicates } =
      { request := { request.applyRest.request with predicates := predicates }
        calls := request.applyRest.calls
        result := request.applyRest.result } := by
  have sameSorts : readSorts { request with predicates := predicates } = request.readSorts := rfl
  unfold applyRest applySorts
  rw [sameSorts]
  cases request.readSorts with
  | error failure => rfl
  | ok sorts =>
      have sameExpansions :
          readExpansions { request with predicates := predicates, sorts := sorts } =
            readExpansions { request with sorts := sorts } := rfl
      simp only [Stage.andThen, applyExpansions]
      rw [sameExpansions]
      cases readExpansions { request with sorts := sorts } with
      | error failure => rfl
      | ok expansions => rfl

/-- A fresh request takes over its predicates first; a filter that fails leaves no trace. -/
theorem apply_fresh (request : Request) (fresh : request.page = none) :
    request.apply =
      match request.readPredicates with
      | .error failure => ⟨request, [], .error failure⟩
      | .ok predicates =>
          { request :=
              { request.applyRest.request with predicates := request.predicates ++ predicates }
            calls := predicates.map .addPredicate ++ request.applyRest.calls
            result := request.applyRest.result } := by
  unfold apply
  rw [fresh]
  simp only [applyFilter]
  cases request.readPredicates with
  | error failure => rfl
  | ok predicates =>
      have rest := apply_rest_with_predicates request (request.predicates ++ predicates)
      simp only [applyRest] at rest ⊢
      simp only [Stage.andThen] at rest ⊢
      rw [rest]

theorem apply_rest_of_read (request : Request) {sorts : List SortKey} {expansions : List String}
    (readSort : request.readSorts = .ok sorts)
    (readExpand : request.readExpansions = .ok expansions) :
    request.applyRest =
      let page := Page.ofSettings request.options request.settings
      { request :=
          { request with sorts := sorts, expansions := expansions, page := some page }
        calls := request.restCalls sorts expansions page
        result := .ok page } := by
  have sameExpansions :
      readExpansions { request with sorts := sorts } = request.readExpansions := rfl
  unfold applyRest applySorts
  rw [readSort]
  simp only [Stage.andThen, applyExpansions]
  rw [sameExpansions, readExpand]
  simp only [applyPage, restCalls]

theorem apply_rest_cases (request : Request) :
    (∃ failure, request.readSorts = .error failure ∧
      request.applyRest = ⟨request, [], .error failure⟩) ∨
    (∃ sorts failure, request.readSorts = .ok sorts ∧ request.readExpansions = .error failure ∧
      request.applyRest =
        { request := { request with sorts := sorts }
          calls := sorts.map fun sort =>
            .addOrdering (qualifyField sort.field request.settings.rootAlias) sort.direction
          result := .error failure }) ∨
    ∃ sorts expansions, request.readSorts = .ok sorts ∧ request.readExpansions = .ok expansions ∧
      request.applyRest =
        let page := Page.ofSettings request.options request.settings
        { request :=
            { request with sorts := sorts, expansions := expansions, page := some page }
          calls := request.restCalls sorts expansions page
          result := .ok page } := by
  cases readSort : request.readSorts with
  | error failure =>
      refine .inl ⟨failure, rfl, ?_⟩
      unfold applyRest applySorts
      rw [readSort]
      rfl
  | ok sorts =>
      cases readExpand : request.readExpansions with
      | error failure =>
          refine .inr (.inl ⟨sorts, failure, rfl, rfl, ?_⟩)
          have sameExpansions :
              readExpansions { request with sorts := sorts } = request.readExpansions := rfl
          unfold applyRest applySorts
          rw [readSort]
          simp only [Stage.andThen, applyExpansions, sameExpansions, readExpand, List.append_nil]
      | ok expansions =>
          exact .inr (.inr ⟨sorts, expansions, rfl, rfl,
            request.apply_rest_of_read readSort readExpand⟩)

theorem apply_rest_returns (request : Request) {page : Page}
    (returned : request.applyRest.result = .ok page) :
    ∃ sorts expansions, request.readSorts = .ok sorts ∧
      request.readExpansions = .ok expansions ∧
      page = Page.ofSettings request.options request.settings := by
  rcases request.apply_rest_cases with ⟨_, _, stages⟩ | ⟨_, _, _, _, stages⟩ |
      ⟨sorts, expansions, readSort, readExpand, stages⟩
  · rw [stages] at returned
    cases returned
  · rw [stages] at returned
    cases returned
  · rw [stages] at returned
    exact ⟨sorts, expansions, readSort, readExpand, (Except.ok.inj returned).symm⟩

theorem apply_of_reads (request : Request) (fresh : request.page = none)
    {predicates : List Predicate} {sorts : List SortKey} {expansions : List String}
    (readFilter : request.readPredicates = .ok predicates)
    (readSort : request.readSorts = .ok sorts)
    (readExpand : request.readExpansions = .ok expansions) :
    request.apply =
      let page := Page.ofSettings request.options request.settings
      { request :=
          { request with
            predicates := request.predicates ++ predicates
            sorts := sorts
            expansions := expansions
            page := some page }
        calls := predicates.map .addPredicate ++ request.restCalls sorts expansions page
        result := .ok page } := by
  rw [apply_fresh request fresh, readFilter]
  dsimp only
  rw [apply_rest_of_read request readSort readExpand]

/-- A fresh request is applied as far as its options can be read; the first option that cannot be
read decides how it fails. -/
theorem apply_result (request : Request) (fresh : request.page = none) :
    request.apply.result = do
      let _ ← request.readPredicates
      let _ ← request.readSorts
      let _ ← request.readExpansions
      return Page.ofSettings request.options request.settings := by
  rw [apply_fresh request fresh]
  cases request.readPredicates with
  | error failure => rfl
  | ok predicates =>
      rcases request.apply_rest_cases with ⟨_, readSort, stages⟩ |
          ⟨_, _, readSort, readExpand, stages⟩ | ⟨_, _, readSort, readExpand, stages⟩
      · rw [stages, readSort]
        rfl
      · rw [stages, readSort, readExpand]
        rfl
      · rw [stages, readSort, readExpand]
        rfl

theorem apply_returns (request : Request) {page : Page} (fresh : request.page = none)
    (returned : request.apply.result = .ok page) :
    ∃ predicates sorts expansions,
      request.readPredicates = .ok predicates ∧ request.readSorts = .ok sorts ∧
        request.readExpansions = .ok expansions ∧
        page = Page.ofSettings request.options request.settings := by
  have stages := apply_fresh request fresh
  cases readFilter : request.readPredicates with
  | error failure => simp [stages, readFilter] at returned
  | ok predicates =>
      simp only [readFilter] at stages
      rw [stages] at returned
      obtain ⟨sorts, expansions, readSort, readExpand, samePage⟩ :=
        apply_rest_returns request returned
      exact ⟨predicates, sorts, expansions, rfl, readSort, readExpand, samePage⟩

end QueryOptions.Request
