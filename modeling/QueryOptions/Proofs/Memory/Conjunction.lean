import QueryOptions.Proofs.Memory.Filtered
import QueryOptions.Proofs.Text.Splitting

/-!
Conjunctions of filters. A filter joined to another one is read as the clauses of both, those of the
second moved behind the fragments of the first. A clause makes the same condition wherever it
stands, so the rows of a conjunction are those that both filters select, and the order in which two
filters are joined does not matter.
-/

namespace QueryOptions

def Clause.moved (clause : Clause) (offset : Int) : Clause :=
  { clause with position := clause.position + offset }

theorem Operator.read_nil (operator : Operator) : operator.read [] = none := by
  rcases operator with _ | _ | kind | kind
  · rfl
  · rfl
  · rfl
  · cases kind <;> rfl

theorem Grammar.read_clause_moved (grammar : Grammar) (fragment : List Char)
    (position offset : Int) :
    grammar.readClause fragment (position + offset) =
      (grammar.readClause fragment position).map (·.moved offset) := by
  unfold readClause
  dsimp only
  rw [List.map_findSome?]
  congr 1
  funext operator
  dsimp only [Function.comp_apply]
  cases operator.read (Text.trim fragment) <;> rfl

theorem Grammar.read_clause_nil (grammar : Grammar) (position : Int) :
    grammar.readClause [] position = none := by
  unfold readClause
  refine List.findSome?_eq_none_iff.mpr fun operator _ => ?_
  exact congrArg (Option.map _) operator.read_nil

namespace Filter

def clausesFrom (grammar : Grammar) : Int → List String → List Clause
  | _, [] => []
  | position, fragment :: rest =>
      (grammar.readClause fragment.toList position).toList ++
        clausesFrom grammar (position + 1) rest

theorem read_fragments_eq_clauses (grammar : Grammar) (position : Int) (fragments : List String) :
    readFragments grammar .lenient position fragments =
      .ok (clausesFrom grammar position fragments) := by
  induction fragments generalizing position with
  | nil => rfl
  | cons fragment rest induction =>
      rw [read_fragments_lenient, induction]
      rfl

theorem clauses_from_append (grammar : Grammar) (position : Int) (left right : List String) :
    clausesFrom grammar position (left ++ right) =
      clausesFrom grammar position left ++
        clausesFrom grammar (position + left.length) right := by
  induction left generalizing position with
  | nil => simp [clausesFrom]
  | cons fragment rest induction =>
      have behind : position + 1 + (rest.length : Int) = position + (fragment :: rest).length := by
        rw [List.length_cons]
        omega
      rw [List.cons_append, clausesFrom, clausesFrom, induction, behind, List.append_assoc]

theorem clauses_from_moved (grammar : Grammar) (position offset : Int) (fragments : List String) :
    clausesFrom grammar (position + offset) fragments =
      (clausesFrom grammar position fragments).map (·.moved offset) := by
  induction fragments generalizing position with
  | nil => rfl
  | cons fragment rest induction =>
      have next : position + offset + 1 = position + 1 + offset := by omega
      rw [clausesFrom, clausesFrom, next, induction, Grammar.read_clause_moved, List.map_append]
      cases grammar.readClause fragment.toList position <;> rfl

/-- An empty filter has one fragment, which is no clause. -/
theorem read_text_lenient (grammar : Grammar) (text : String) :
    Filter.read grammar .lenient (.text text) = .ok (clausesFrom grammar 0 (fragments text)) := by
  rw [read_eq_read_fragments, read_fragments_eq_clauses, Value.parts]
  split
  · rename_i empty
    rw [String.isEmpty_iff.mp empty]
    have alone : fragments "" = [""] := by simp [fragments, Text.splitAtText]
    have nothing : clausesFrom grammar 0 [""] = [] :=
      congrArg (fun clause => clause.toList ++ []) (Grammar.read_clause_nil grammar 0)
    rw [alone, nothing]
    rfl
  · rfl

theorem fragments_joined {left : String} (closed : ¬" and".toList <:+ left.toList)
    (right : String) : fragments (left ++ " and " ++ right) = fragments left ++ fragments right := by
  have letters : (left ++ " and " ++ right).toList =
      left.toList ++ ' ' :: ("and".toList ++ [' '] ++ right.toList) := by simp
  have inked : ' ' ∉ "and".toList := by decide
  have splits := Text.Splits.append_at_word inked (.of_split _ _ left.toList) closed
    (.of_split _ _ right.toList)
  unfold fragments
  rw [letters, ← List.map_append]
  exact congrArg (List.map String.ofList) splits.eq

theorem read_joined (grammar : Grammar) {left : String}
    (closed : ¬" and".toList <:+ left.toList) (right : String) :
    ∃ lefts rights, Filter.read grammar .lenient (.text left) = .ok lefts ∧
      Filter.read grammar .lenient (.text right) = .ok rights ∧
      Filter.read grammar .lenient (.text (left ++ " and " ++ right)) =
        .ok (lefts ++ rights.map (·.moved (fragments left).length)) := by
  refine ⟨_, _, read_text_lenient grammar left, read_text_lenient grammar right, ?_⟩
  rw [read_text_lenient, fragments_joined closed, clauses_from_append, clauses_from_moved]

end Filter

namespace Memory.Collection

def conditionOf (scope : Scope) (clause : Clause) : Except ClauseFailure (Option Condition) :=
  (scope.resolve clause).map fun predicate => predicate.map Condition.ofPredicate

section Conditions

variable (scope : Scope)

theorem conditions_cons (clause : Clause) (clauses : List Clause) :
    conditionsOf scope (clause :: clauses) = do
      let condition ← conditionOf scope clause
      let conditions ← conditionsOf scope clauses
      return condition.toList ++ conditions := by
  unfold conditionsOf conditionOf
  rw [Scope.resolveAll]
  cases scope.resolve clause with
  | error failure => rfl
  | ok predicate =>
      cases scope.resolveAll clauses with
      | error failure => rfl
      | ok predicates => cases predicate <;> rfl

theorem conditions_append (left right : List Clause) :
    conditionsOf scope (left ++ right) = do
      let lefts ← conditionsOf scope left
      let rights ← conditionsOf scope right
      return lefts ++ rights := by
  induction left with
  | nil => exact (bind_pure _).symm
  | cons clause rest induction =>
      rw [List.cons_append, conditions_cons, conditions_cons, induction]
      simp only [bind_assoc, pure_bind, List.append_assoc]

/-- The position of a clause numbers a placeholder, and a condition has none. -/
theorem condition_of_moved (clause : Clause) (offset : Int) :
    conditionOf scope (clause.moved offset) = conditionOf scope clause := by
  have sameField : (clause.moved offset).field = clause.field := rfl
  unfold conditionOf Scope.resolve
  rw [sameField]
  cases scope.strictness.settle (scope.authorise clause.field) with
  | error rejection => rfl
  | ok authorised =>
      cases authorised with
      | none => rfl
      | some _ =>
          unfold Scope.predicate Clause.moved
          dsimp only
          cases clause.operator.bind (clause.rawValue.getD "") with
          | error failure => rfl
          | ok literal? => cases literal? <;> rfl

theorem conditions_moved (clauses : List Clause) (offset : Int) :
    conditionsOf scope (clauses.map (·.moved offset)) = conditionsOf scope clauses := by
  induction clauses with
  | nil => rfl
  | cons clause rest induction =>
      rw [List.map_cons, conditions_cons, conditions_cons, induction, condition_of_moved]

theorem conditions_append_ok_iff (left right : List Clause) (conditions : List Condition) :
    conditionsOf scope (left ++ right) = .ok conditions ↔
      ∃ lefts rights, conditionsOf scope left = .ok lefts ∧ conditionsOf scope right = .ok rights ∧
        conditions = lefts ++ rights := by
  rw [conditions_append]
  constructor
  · intro made
    obtain ⟨lefts, madeLeft, made⟩ := parts_of_bind made
    obtain ⟨rights, madeRight, same⟩ := parts_of_bind made
    exact ⟨lefts, rights, madeLeft, madeRight, (Except.ok.inj same).symm⟩
  · rintro ⟨lefts, rights, madeLeft, madeRight, rfl⟩
    rw [madeLeft, madeRight]
    rfl

end Conditions

/-- The conditions that a filter text makes when what cannot be read is dropped. -/
def conditionsIn (scope : Scope) (text : String) : Except ClauseFailure (List Condition) :=
  conditionsOf scope (Filter.clausesFrom .standard 0 (Filter.fragments text))

theorem conditions_joined_iff (scope : Scope) {left : String}
    (closed : ¬" and".toList <:+ left.toList) (right : String) (conditions : List Condition) :
    conditionsIn scope (left ++ " and " ++ right) = .ok conditions ↔
      ∃ lefts rights, conditionsIn scope left = .ok lefts ∧
        conditionsIn scope right = .ok rights ∧ conditions = lefts ++ rights := by
  unfold conditionsIn
  rw [Filter.fragments_joined closed, Filter.clauses_from_append, Filter.clauses_from_moved,
    conditions_append_ok_iff]
  simp only [conditions_moved]

section Joined

variable [Attributes]

section Tested

variable {rows : List Value} {rootAlias : String} {left right : List Condition}

theorem can_test_all_append (first : canTestAll rows rootAlias left = true)
    (second : canTestAll rows rootAlias right = true) :
    canTestAll rows rootAlias (left ++ right) = true := by
  refine List.all_eq_true.mpr fun row member => ?_
  rw [can_test_append, List.all_eq_true.mp first row member, List.all_eq_true.mp second row member,
    Bool.or_true, Bool.and_true]

theorem can_test_all_of_append (both : canTestAll rows rootAlias (left ++ right) = true) :
    canTestAll rows rootAlias left = true := by
  refine List.all_eq_true.mpr fun row member => ?_
  have here := List.all_eq_true.mp both row member
  rw [can_test_append, Bool.and_eq_true] at here
  exact here.1

end Tested

open Classical in
theorem kept_by_both (rows : List Value) (rootAlias : String) (left right : List Condition) :
    keptBy rows rootAlias (left ++ right) =
      rows.filter fun row =>
        row ∈ keptBy rows rootAlias left ∧ row ∈ keptBy rows rootAlias right := by
  unfold keptBy
  refine List.filter_congr fun row member => ?_
  rw [Bool.eq_iff_iff, List.all_append, Bool.and_eq_true, decide_eq_true_iff, List.mem_filter,
    List.mem_filter]
  exact ⟨fun ⟨first, second⟩ => ⟨⟨member, first⟩, member, second⟩,
    fun ⟨first, second⟩ => ⟨first.2, second.2⟩⟩

theorem kept_by_comm (rows : List Value) (rootAlias : String) (left right : List Condition) :
    keptBy rows rootAlias (left ++ right) = keptBy rows rootAlias (right ++ left) := by
  unfold keptBy
  refine List.filter_congr fun row _ => ?_
  rw [List.all_append, List.all_append, Bool.and_comm]

variable {access : Access} {settings : Settings} {options : List (String × Value)}
  {rows : List Value} {rootAlias : String}

theorem answers_of_text {text : String} (asks : OnlyFilters access settings options (.text text))
    (lenient : settings.strictness = .lenient) {answer : Answer} :
    (ask rows rootAlias access settings options).execute.2 = .ok answer ↔
      ∃ conditions, conditionsIn (settings.scope access) text = .ok conditions ∧
        canTestAll rows rootAlias conditions = true ∧
        answer = ⟨keptBy rows rootAlias conditions,
          (keptBy rows rootAlias conditions).length⟩ :=
  answers_of_clauses asks (lenient ▸ Filter.read_text_lenient .standard text) answer

open Classical in
/-- A conjunction is read as the clauses of both filters. Where both filters can be answered it
selects the rows that both of them select, where a filter whose clauses were all dropped selects
every row. A conjunction that can be answered has a first filter that can be, while the second one
may fail alone, on rows that the first excludes. -/
theorem conjunction_selects_common_rows {left : String} (closed : ¬" and".toList <:+ left.toList)
    (right : String) :
    (∀ grammar, ∃ lefts rights, Filter.read grammar .lenient (.text left) = .ok lefts ∧
      Filter.read grammar .lenient (.text right) = .ok rights ∧
      Filter.read grammar .lenient (.text (left ++ " and " ++ right)) =
        .ok (lefts ++ rights.map (·.moved (Filter.fragments left).length))) ∧
    ∀ rows rootAlias access settings (query : String → List (String × Value)),
      settings.strictness = .lenient →
      (∀ filter, OnlyFilters access settings (query filter) (.text filter)) →
      let asked := fun filter => ask rows rootAlias access settings (query filter)
      let run := fun filter => (asked filter).execute.2
      ((∃ answer, run (left ++ " and " ++ right) = .ok answer) →
        (∃ first, run left = .ok first) ∧
          ((∃ second, run right = .ok second) ∨ run right = .error (.unwritable {}))) ∧
      ∀ first second, run left = .ok first → run right = .ok second →
        let common := rows.filter fun row => row ∈ first.rows ∧ row ∈ second.rows
        run (left ++ " and " ++ right) = .ok ⟨common, common.length⟩ ∧
        ((asked left).request.readPredicates = .ok [] → first.rows = rows) ∧
        ((asked right).request.readPredicates = .ok [] → second.rows = rows) ∧
        (¬" and".toList <:+ right.toList →
          run (right ++ " and " ++ left) = .ok ⟨common, common.length⟩) := by
  refine ⟨fun grammar => Filter.read_joined grammar closed right, ?_⟩
  intro rows rootAlias access settings query lenient asks asked run
  have runs {filter : String} {answer : Answer} : run filter = .ok answer ↔
      ∃ conditions, conditionsIn (settings.scope access) filter = .ok conditions ∧
        canTestAll rows rootAlias conditions = true ∧
        answer = ⟨keptBy rows rootAlias conditions,
          (keptBy rows rootAlias conditions).length⟩ :=
    answers_of_text (asks filter) lenient
  refine ⟨?_, ?_⟩
  · rintro ⟨answer, answered⟩
    obtain ⟨_, made, testable, _⟩ := runs.mp answered
    obtain ⟨lefts, rights, madeLeft, madeRight, rfl⟩ := (conditions_joined_iff _ closed _ _).mp made
    refine ⟨⟨_, runs.mpr ⟨lefts, madeLeft, can_test_all_of_append testable, rfl⟩⟩, ?_⟩
    cases alone : canTestAll rows rootAlias rights with
    | true => exact .inl ⟨_, runs.mpr ⟨rights, madeRight, alone, rfl⟩⟩
    | false =>
        exact .inr (fails_of_clauses (asks right)
          (lenient ▸ Filter.read_text_lenient .standard right) madeRight alone)
  · intro first second ranLeft ranRight common
    obtain ⟨lefts, madeLeft, testLeft, rfl⟩ := runs.mp ranLeft
    obtain ⟨rights, madeRight, testRight, rfl⟩ := runs.mp ranRight
    have shared : keptBy rows rootAlias (lefts ++ rights) = common :=
      kept_by_both rows rootAlias lefts rights
    have swapped : keptBy rows rootAlias (rights ++ lefts) = common :=
      (kept_by_comm rows rootAlias rights lefts).trans shared
    refine ⟨runs.mpr ⟨lefts ++ rights, ?_, can_test_all_append testLeft testRight, ?_⟩, all_rows_of_no_predicates (asks left) ranLeft,
      all_rows_of_no_predicates (asks right) ranRight,
      fun closedRight => runs.mpr ⟨rights ++ lefts, ?_, can_test_all_append testRight testLeft, ?_⟩⟩
    · exact (conditions_joined_iff _ closed _ _).mpr ⟨_, _, madeLeft, madeRight, rfl⟩
    · rw [shared]
    · exact (conditions_joined_iff _ closedRight _ _).mpr ⟨_, _, madeRight, madeLeft, rfl⟩
    · rw [swapped]

end Joined

attribute [local instance] Attributes.bare in
/-- One fragment of the first filter cannot be read and is dropped; Jane is too young and Bob has
another letter. -/
theorem conjunction_selects_two_of_four :
    let people : List Value := [.record [("name", .text "John"), ("age", .integer 30)],
      .record [("name", .text "Jane"), ("age", .integer 17)],
      .record [("name", .text "Bob"), ("age", .integer 40)],
      .record [("name", .text "Joan"), ("age", .integer 25)]]
    let query := fun filter => [("$filter", Value.text filter)]
    let run := fun filter => (ask people "entity" {} {} (query filter)).execute.2
    let left := "age gt 20 and nonsense"
    let right := "startswith(name,'J')"
    ¬" and".toList <:+ left.toList ∧ ¬" and".toList <:+ right.toList ∧
      (∀ filter, OnlyFilters {} {} (query filter) (.text filter)) ∧
      ∃ first second both, run left = .ok first ∧ run right = .ok second ∧
        run (left ++ " and " ++ right) = .ok both ∧ run (right ++ " and " ++ left) = .ok both ∧
        both.rows.map (fun row => (resolve row "name").plainText) = ["John", "Joan"] ∧
        ∀ row, row ∈ both.rows ↔ row ∈ people ∧ row ∈ first.rows ∧ row ∈ second.rows := by
  intro people query run left right
  have closed : ¬" and".toList <:+ left.toList := by decide
  have closedRight : ¬" and".toList <:+ right.toList := by decide
  have asks (filter : String) : OnlyFilters {} {} (query filter) (.text filter) :=
    .of_filter {} (.text filter) rfl (by decide)
  have named : (run (left ++ " and " ++ right)).toOption.map (fun answer =>
      answer.rows.map fun row => (resolve row "name").plainText) = some ["John", "Joan"] := by
    decide +kernel
  obtain ⟨both, found, names⟩ := Option.map_eq_some_iff.mp named
  have ran := ok_of_to_option found
  obtain ⟨_, answers⟩ := conjunction_selects_common_rows closed right
  obtain ⟨apart, selects⟩ := answers people "entity" {} {} query rfl asks
  obtain ⟨⟨first, ranLeft⟩, alone⟩ := apart ⟨both, ran⟩
  have testable : (run right).isOk = true := by decide +kernel
  obtain ⟨second, ranRight⟩ := alone.resolve_right fun failed : run right = _ => by
    rw [failed] at testable
    cases testable
  obtain ⟨joined, _, _, turned⟩ := selects first second ranLeft ranRight
  obtain rfl := Except.ok.inj (ran.symm.trans joined)
  refine ⟨closed, closedRight, asks, first, second, _, ranLeft, ranRight, ran, turned closedRight,
    names, fun row => ?_⟩
  simp only [List.mem_filter, decide_eq_true_eq]

end Memory.Collection

end QueryOptions
