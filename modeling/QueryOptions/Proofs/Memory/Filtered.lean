import QueryOptions.Proofs.Memory.Kept

/-!
Queries that only filter. Without an order and bounds a query answers with the rows that satisfy the
conditions of its clauses, in their own order. It fails exactly when its filter does or when a
condition that it reaches cannot be tested. What a condition tests is the value under the path that
its field names within a row.
-/

namespace QueryOptions

/-- Options with a filter that ask for neither an order nor bounds. -/
structure OnlyFilters (access : Access) (settings : Settings) (options : List (String × Value))
    (filter : Value) : Prop where
  given : Page.optionValue options settings.filterKey = filter
  unordered : SortKey.read access settings.strictness
    (Page.optionValue options settings.orderbyKey) = .ok []
  expanding : ∃ relations, Expansion.read access settings.strictness
    (Page.optionValue options settings.expandKey) = .ok relations
  unbounded : Page.ofSettings options settings = ⟨0, 0⟩

theorem OnlyFilters.of_filter (access : Access) {settings : Settings} (filter : Value)
    (unlimited : settings.maxTop = none)
    (apart : ∀ key ∈ [settings.orderbyKey, settings.expandKey, settings.topKey, settings.skipKey],
      settings.filterKey ≠ key) :
    OnlyFilters access settings [(settings.filterKey, filter)] filter := by
  have given : Page.optionValue [(settings.filterKey, filter)] settings.filterKey = filter := by
    simp [Page.optionValue, Value.lookup]
  have missing {key : String} (differs : settings.filterKey ≠ key) :
      Page.optionValue [(settings.filterKey, filter)] key = .null := by
    simp [Page.optionValue, Value.lookup, differs]
  refine ⟨given, ?_, ⟨[], ?_⟩, Page.of_settings_without_bounds _ unlimited fun key known => ?_⟩
  · rw [missing (apart _ (by simp))]
    rfl
  · rw [missing (apart _ (by simp))]
    rfl
  · exact missing (apart key (List.mem_of_mem_drop (i := 2) known))

def Settings.scope (settings : Settings) (access : Access) : Scope where
  access := access
  rootAlias := settings.rootAlias
  strictness := settings.strictness

namespace Memory.Collection

def conditionsOf (scope : Scope) (clauses : List Clause) :
    Except ClauseFailure (List Condition) :=
  (scope.resolveAll clauses).map fun predicates => predicates.map Condition.ofPredicate

theorem conditions_of_ok {scope : Scope} {clauses : List Clause} {conditions : List Condition}
    (made : conditionsOf scope clauses = .ok conditions) :
    ∃ predicates, scope.resolveAll clauses = .ok predicates ∧
      conditions = predicates.map Condition.ofPredicate := by
  unfold conditionsOf at made
  cases resolved : scope.resolveAll clauses with
  | error failure =>
      rw [resolved] at made
      cases made
  | ok predicates =>
      rw [resolved] at made
      exact ⟨predicates, rfl, (Except.ok.inj made).symm⟩

section Queries

variable [Attributes]

/-- Whether no test of conditions on the rows fails. -/
def canTestAll (rows : List Value) (rootAlias : String) (conditions : List Condition) : Bool :=
  rows.all fun row => canTest { rows := rows, rootAlias := rootAlias } row conditions

theorem can_test_all_of_no_pattern (rows : List Value) (rootAlias : String)
    {conditions : List Condition}
    (exact : ∀ condition ∈ conditions, ∀ pattern, condition.operator ≠ .pattern pattern) :
    canTestAll rows rootAlias conditions = true :=
  List.all_eq_true.mpr fun row _ => can_test_of_no_pattern _ row exact

def keptBy (rows : List Value) (rootAlias : String) (conditions : List Condition) : List Value :=
  rows.filter fun row => conditions.all (satisfies { rows := rows, rootAlias := rootAlias } row)

theorem kept_eq_kept_by (rows : List Value) (rootAlias : String) (predicates : List Predicate) :
    kept rows rootAlias predicates =
      keptBy rows rootAlias (predicates.map Condition.ofPredicate) := by
  unfold kept keptBy
  refine List.filter_congr fun row _ => ?_
  rw [List.all_map]
  rfl

variable {access : Access} {settings : Settings} {options : List (String × Value)}
  {filter : Value} {rows : List Value} {rootAlias : String}

theorem ordered_without_order (rows : List Value) (rootAlias qualifier : String)
    (predicates : List Predicate) (page : Page) :
    (requested rows rootAlias qualifier predicates [] page).ordered =
      .ok (kept rows rootAlias predicates) :=
  congrArg Except.ok (requested_matching rows rootAlias qualifier predicates [] page)

theorem answers_of_predicates (asks : OnlyFilters access settings options filter)
    {predicates : List Predicate}
    (readFilter : (ask rows rootAlias access settings options).request.readPredicates =
      .ok predicates)
    (testable : canTestAll rows rootAlias (predicates.map Condition.ofPredicate) = true) :
    (ask rows rootAlias access settings options).execute.2 =
      .ok ⟨keptBy rows rootAlias (predicates.map Condition.ofPredicate),
        (keptBy rows rootAlias (predicates.map Condition.ofPredicate)).length⟩ := by
  obtain ⟨relations, readExpand⟩ := asks.expanding
  have gives : Gives rows rootAlias access settings options (kept rows rootAlias predicates) := by
    refine ⟨predicates, [], relations, readFilter, ?_, ?_, testable,
      ordered_without_order _ _ _ _ _⟩
    · exact congrArg (Except.mapError Failure.rejected) asks.unordered
    · exact congrArg (Except.mapError Failure.rejected) readExpand
  rw [gives.executes, asks.unbounded, ← kept_eq_kept_by]
  rfl

theorem fails_of_predicates (asks : OnlyFilters access settings options filter)
    {predicates : List Predicate}
    (readFilter : (ask rows rootAlias access settings options).request.readPredicates =
      .ok predicates)
    (untestable : canTestAll rows rootAlias (predicates.map Condition.ofPredicate) = false) :
    (ask rows rootAlias access settings options).execute.2 = .error (.unwritable {}) := by
  obtain ⟨relations, readExpand⟩ := asks.expanding
  have readSort : (ask rows rootAlias access settings options).request.readSorts = .ok [] :=
    congrArg (Except.mapError Failure.rejected) asks.unordered
  obtain ⟨applies, executes⟩ := ask_applies readFilter readSort
    (congrArg (Except.mapError Failure.rejected) readExpand)
  rw [Session.execute_of_ok applies, executes, execute]
  exact if_neg (Bool.not_eq_true _ ▸ untestable)

theorem answers_iff (asks : OnlyFilters access settings options filter) {answer : Answer} :
    (ask rows rootAlias access settings options).execute.2 = .ok answer ↔
      ∃ clauses conditions, Filter.read .standard settings.strictness filter = .ok clauses ∧
        conditionsOf (settings.scope access) clauses = .ok conditions ∧
        canTestAll rows rootAlias conditions = true ∧
        answer = ⟨keptBy rows rootAlias conditions,
          (keptBy rows rootAlias conditions).length⟩ := by
  let request := (ask rows rootAlias access settings options).request
  have reads (predicates : List Predicate) := request.read_predicates_iff predicates
  have filterGiven : request.option request.settings.filterKey = filter := asks.given
  rw [filterGiven] at reads
  constructor
  · intro executed
    obtain ⟨predicates, _, _, _, readFilter, _, _, testable, _⟩ := reads_of_execution executed
    obtain ⟨clauses, read, resolved⟩ := (reads predicates).mp readFilter
    refine ⟨clauses, predicates.map Condition.ofPredicate, read, ?_, testable, ?_⟩
    · exact congrArg (Except.map _) resolved
    · rw [answers_of_predicates asks readFilter testable] at executed
      exact (Except.ok.inj executed).symm
  · rintro ⟨clauses, conditions, read, made, testable, rfl⟩
    obtain ⟨predicates, resolved, rfl⟩ := conditions_of_ok made
    exact answers_of_predicates asks ((reads predicates).mpr ⟨clauses, read, resolved⟩) testable

theorem answers_of_clauses (asks : OnlyFilters access settings options filter)
    {clauses : List Clause}
    (read : Filter.read .standard settings.strictness filter = .ok clauses) (answer : Answer) :
    (ask rows rootAlias access settings options).execute.2 = .ok answer ↔
      ∃ conditions, conditionsOf (settings.scope access) clauses = .ok conditions ∧
        canTestAll rows rootAlias conditions = true ∧
        answer = ⟨keptBy rows rootAlias conditions,
          (keptBy rows rootAlias conditions).length⟩ := by
  rw [answers_iff asks]
  constructor
  · rintro ⟨_, conditions, other, made, same⟩
    rw [read] at other
    cases other
    exact ⟨conditions, made, same⟩
  · rintro ⟨conditions, made, same⟩
    exact ⟨clauses, conditions, read, made, same⟩

theorem fails_of_clauses (asks : OnlyFilters access settings options filter)
    {clauses : List Clause}
    (read : Filter.read .standard settings.strictness filter = .ok clauses)
    {conditions : List Condition}
    (made : conditionsOf (settings.scope access) clauses = .ok conditions)
    (untestable : canTestAll rows rootAlias conditions = false) :
    (ask rows rootAlias access settings options).execute.2 = .error (.unwritable {}) := by
  obtain ⟨predicates, resolved, rfl⟩ := conditions_of_ok made
  refine fails_of_predicates asks ((Request.read_predicates_iff _ predicates).mpr ?_) untestable
  have sameFilter := congrArg (Filter.read .standard settings.strictness) asks.given
  exact ⟨clauses, sameFilter.trans read, resolved⟩

theorem all_rows_of_no_predicates (asks : OnlyFilters access settings options filter)
    {answer : Answer}
    (executed : (ask rows rootAlias access settings options).execute.2 = .ok answer)
    (nothing : (ask rows rootAlias access settings options).request.readPredicates = .ok []) :
    answer.rows = rows := by
  have testable : canTestAll rows rootAlias [] = true := List.all_eq_true.mpr fun _ _ => rfl
  rw [answers_of_predicates asks nothing testable] at executed
  rw [← Except.ok.inj executed]
  exact List.filter_eq_self.mpr fun _ _ => rfl

end Queries

section Paths

/-- A field names a path within the rows, either behind the alias of the root or as it stands. -/
def NamesPath (rootAlias field path : String) : Prop :=
  field = rootAlias ++ "." ++ path ∨ field = path ∧ ¬(rootAlias ++ ".").toList <+: field.toList

theorem local_path_of_named (collection : Collection) {field path : String}
    (named : NamesPath collection.rootAlias field path) :
    collection.localPath (qualifyField field collection.rootAlias) = path := by
  rcases named with rfl | ⟨rfl, apart⟩
  · have dotted : (collection.rootAlias ++ "." ++ path).toList.contains '.' = true := by simp
    rw [qualifyField, if_pos dotted, local_path_of_root]
  · unfold qualifyField
    split
    · unfold localPath
      split
      · rename_i rest found
        have whole := Text.eq_append_of_dropped found
        exact absurd ⟨rest, by rw [whole]; simp⟩ apart
      · rfl
    · exact local_path_of_root collection field

end Paths

end Memory.Collection

end QueryOptions
