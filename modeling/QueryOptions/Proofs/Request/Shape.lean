import Mathlib.Data.List.Forall2
import QueryOptions.Proofs.Request.Admission
import QueryOptions.Proofs.Request.Literals
import QueryOptions.Proofs.Text.Splitting

/-!
The shape of a predicate is all of it but the bound literal. Clauses that differ in their raw values
only have the same outcome up to that literal, so two filters that agree on everything but their
literals are taken over alike or refused for the same reason.
-/

namespace QueryOptions

/-- A numeral without a point whose digits exceed the limit, with or without a minus sign. -/
def Literal.IsOverlong (raw : String) : Prop :=
  ∃ digits : List Char, (raw.toList = digits ∨ raw.toList = '-' :: digits) ∧
    digits.all Text.isDigit = true ∧ IntegerTooLong.limit < digits.length

structure Clause.Agrees (left right : Clause) : Prop where
  field : left.field = right.field
  operator : left.operator = right.operator
  position : left.position = right.position

def Clause.IsReadable (clause : Clause) : Prop :=
  ∀ raw, clause.rawValue = some raw → ¬Literal.IsOverlong raw

structure Predicate.SameShape (left right : Predicate) : Prop where
  template : left.template = right.template
  field : left.field = right.field
  operator : left.operator = right.operator
  name : left.binding.map (·.name) = right.binding.map (·.name)

/-- Two outcomes of one clause: both dropped, both refused for one reason, or of one shape. -/
def SameOutcome :
    Except ClauseFailure (Option Predicate) → Except ClauseFailure (Option Predicate) → Prop
  | .error left, .error right => left = right
  | .ok none, .ok none => True
  | .ok (some left), .ok (some right) => left.SameShape right
  | _, _ => False

namespace Literal

theorem overlong_of_error {raw : String} {failure : IntegerTooLong}
    (failed : ofRaw raw = .error failure) : IsOverlong raw := by
  obtain ⟨numeral, proper, written, same⟩ := numeral_of_raw raw (by simp [failed])
    (by simp [failed]) (by simp [failed])
  rw [same, PlainNumeral.value] at failed
  split at failed
  · rename_i whole
    split at failed
    · rename_i tooLong
      rw [PlainNumeral.whole_written numeral whole] at written
      exact ⟨numeral.whole, written ▸ signed_cases _ _, List.all_eq_true.mpr proper.whole, tooLong⟩
    · cases failed
  · cases failed

theorem short_not_overlong {raw : String} (short : raw.toList.length ≤ IntegerTooLong.limit) :
    ¬IsOverlong raw := by
  rintro ⟨digits, written, _, tooLong⟩
  rcases written with written | written
  · rw [written] at short
    omega
  · rw [written, List.length_cons] at short
    omega

theorem of_raw_readable {raw : String} (short : ¬IsOverlong raw) :
    ∃ literal, ofRaw raw = .ok literal := by
  cases read : ofRaw raw with
  | error failure => exact absurd (overlong_of_error read) short
  | ok literal => exact ⟨literal, rfl⟩

end Literal

namespace Operator

def bindsLiteral : Operator → Bool
  | .isNull | .isNotNull => false
  | .comparison _ | .pattern _ => true

theorem bind_readable (operator : Operator) {raw : String} (short : ¬Literal.IsOverlong raw) :
    ∃ literal, operator.bind raw = .ok literal ∧ literal.isSome = operator.bindsLiteral := by
  obtain ⟨read, found⟩ := Literal.of_raw_readable short
  cases operator with
  | isNull => exact ⟨none, rfl, rfl⟩
  | isNotNull => exact ⟨none, rfl, rfl⟩
  | comparison kind =>
      refine ⟨some read, ?_, rfl⟩
      simp only [bind, found]
      rfl
  | pattern kind =>
      refine ⟨some (.text (kind.wrap read.asText)), ?_, rfl⟩
      simp only [bind, found]
      rfl

end Operator

namespace Clause

theorem readable_of_short {clauses : List Clause}
    (short : ∀ clause ∈ clauses,
      (clause.rawValue.getD "").toList.length ≤ IntegerTooLong.limit) :
    ∀ clause ∈ clauses, clause.IsReadable := by
  intro clause member raw given
  have shortValue := short clause member
  rw [given] at shortValue
  exact Literal.short_not_overlong shortValue

theorem raw_value_short {clause : Clause} (readable : clause.IsReadable) :
    ¬Literal.IsOverlong (clause.rawValue.getD "") := by
  cases given : clause.rawValue with
  | none => exact Literal.short_not_overlong (by decide)
  | some raw => exact readable raw given

end Clause

namespace Scope

/-- The template and the placeholder depend on whether a literal is bound, not on which. -/
theorem on_column_same_shape (column : String) (operator : Operator) (index : Int)
    {left right : Option Literal} (same : left.isSome = right.isSome) :
    (Predicate.onColumn column operator
        (left.map fun literal => ⟨placeholder index, literal⟩)).SameShape
      (Predicate.onColumn column operator
        (right.map fun literal => ⟨placeholder index, literal⟩)) := by
  cases left with
  | none =>
      cases right with
      | none => exact ⟨rfl, rfl, rfl, rfl⟩
      | some literal => cases same
  | some literal =>
      cases right with
      | none => cases same
      | some other => exact ⟨rfl, rfl, rfl, rfl⟩

theorem predicate_same_shape (scope : Scope) {left right : Clause} (agree : left.Agrees right)
    (leftReadable : left.IsReadable) (rightReadable : right.IsReadable) (index : Int) :
    ∃ leftPredicate rightPredicate, scope.predicate left index = .ok leftPredicate ∧
      scope.predicate right index = .ok rightPredicate ∧
      leftPredicate.SameShape rightPredicate := by
  obtain ⟨leftLiteral, leftBound, leftShape⟩ :=
    left.operator.bind_readable (Clause.raw_value_short leftReadable)
  obtain ⟨rightLiteral, rightBound, rightShape⟩ :=
    right.operator.bind_readable (Clause.raw_value_short rightReadable)
  have same : leftLiteral.isSome = rightLiteral.isSome := by
    rw [leftShape, rightShape, agree.operator]
  refine ⟨_, _, ?_, ?_, on_column_same_shape (qualifyField left.field scope.rootAlias)
    left.operator index same⟩
  · rw [Scope.predicate, leftBound]
    rfl
  · rw [Scope.predicate, rightBound, agree.field, agree.operator]
    rfl

theorem resolve_same_outcome (scope : Scope) {left right : Clause} (agree : left.Agrees right)
    (leftReadable : left.IsReadable) (rightReadable : right.IsReadable) :
    SameOutcome (scope.resolve left) (scope.resolve right) := by
  obtain ⟨leftPredicate, rightPredicate, leftBuilt, rightBuilt, shape⟩ :=
    scope.predicate_same_shape agree leftReadable rightReadable left.position
  unfold resolve
  simp only [Option.getD_none]
  rw [← agree.field, ← agree.position, leftBuilt, rightBuilt]
  cases scope.strictness.settle (scope.authorise left.field) with
  | error rejection => rfl
  | ok authorised =>
      cases authorised with
      | none => trivial
      | some _ => exact shape

theorem resolve_each_same_outcome (scope : Scope) {lefts rights : List Clause}
    (agree : List.Forall₂ Clause.Agrees lefts rights)
    (leftReadable : ∀ clause ∈ lefts, clause.IsReadable)
    (rightReadable : ∀ clause ∈ rights, clause.IsReadable) :
    List.Forall₂ (fun left right => SameOutcome (scope.resolve left) (scope.resolve right))
      lefts rights := by
  induction agree with
  | nil => exact .nil
  | @cons left right lefts rights agreeHead agreeTail induction =>
      refine .cons ?_ (induction (fun clause member => leftReadable clause (by simp [member]))
        fun clause member => rightReadable clause (by simp [member]))
      exact scope.resolve_same_outcome agreeHead (leftReadable left (by simp))
        (rightReadable right (by simp))

/-- The induction is on both lists at once: the first clause that is refused is the same in both. -/
theorem resolve_all_same_shape (scope : Scope) {lefts rights : List Clause}
    (outcomes : List.Forall₂
      (fun left right => SameOutcome (scope.resolve left) (scope.resolve right)) lefts rights) :
    (∃ failure, scope.resolveAll lefts = .error failure ∧
        scope.resolveAll rights = .error failure) ∨
      ∃ leftPredicates rightPredicates, scope.resolveAll lefts = .ok leftPredicates ∧
        scope.resolveAll rights = .ok rightPredicates ∧
        List.Forall₂ Predicate.SameShape leftPredicates rightPredicates := by
  induction outcomes with
  | nil => exact .inr ⟨[], [], rfl, rfl, .nil⟩
  | @cons left right lefts rights head _ tail =>
      cases leftHead : scope.resolve left with
      | error failure =>
          cases rightHead : scope.resolve right with
          | error other =>
              rw [leftHead, rightHead] at head
              have same : failure = other := head
              subst same
              refine .inl ⟨failure, ?_, ?_⟩
              · rw [resolveAll, leftHead]
                rfl
              · rw [resolveAll, rightHead]
                rfl
          | ok other => rw [leftHead, rightHead] at head; cases head
      | ok leftPart =>
          cases rightHead : scope.resolve right with
          | error failure =>
              rw [leftHead, rightHead] at head
              cases leftPart <;> cases head
          | ok rightPart =>
              rw [leftHead, rightHead] at head
              rcases tail with ⟨failure, leftTail, rightTail⟩ |
                ⟨leftPredicates, rightPredicates, leftTail, rightTail, shapes⟩
              · refine .inl ⟨failure, ?_, ?_⟩
                · rw [resolveAll, leftHead, leftTail]
                  rfl
                · rw [resolveAll, rightHead, rightTail]
                  rfl
              · refine .inr ⟨leftPart.toList ++ leftPredicates,
                  rightPart.toList ++ rightPredicates, ?_, ?_, ?_⟩
                · rw [resolveAll, leftHead, leftTail]
                  rfl
                · rw [resolveAll, rightHead, rightTail]
                  rfl
                · cases leftPart with
                  | none =>
                      cases rightPart with
                      | none => exact shapes
                      | some predicate => cases head
                  | some predicate =>
                      cases rightPart with
                      | none => cases head
                      | some other => exact .cons head shapes

theorem resolve_all_on_paths {scope : Scope} {clauses : List Clause}
    {predicates : List Predicate} (resolved : scope.resolveAll clauses = .ok predicates) :
    ∀ predicate ∈ predicates, ∃ path, Identifier.isPath path = true ∧
      predicate.field = qualifyField path scope.rootAlias := by
  intro predicate member
  obtain ⟨clause, _, ⟨isPath, _⟩, built⟩ := clause_of_resolved resolved member
  exact ⟨clause.field, isPath, predicate_field built⟩

end Scope

namespace Predicate

/-- A path stands under the root's alias when it is bare, and as it is when it is dotted. -/
def IsOnPath (rootAlias : String) (predicate : Predicate) : Prop :=
  ∃ path, Identifier.isPath path = true ∧
    (('.' ∈ path.toList ∧ predicate.field = path) ∨
      ('.' ∉ path.toList ∧ predicate.field = rootAlias ++ "." ++ path))

theorem is_on_path_of_qualified {rootAlias path : String} {predicate : Predicate}
    (isPath : Identifier.isPath path = true)
    (qualified : predicate.field = qualifyField path rootAlias) :
    predicate.IsOnPath rootAlias := by
  refine ⟨path, isPath, ?_⟩
  by_cases dotted : '.' ∈ path.toList
  · exact .inl ⟨dotted, by simp [qualified, qualifyField, dotted]⟩
  · exact .inr ⟨dotted, by simp [qualified, qualifyField, dotted]⟩

theorem IsOnPath.field_is_path {rootAlias : String} {predicate : Predicate}
    (onPath : predicate.IsOnPath rootAlias) (aliasPath : Identifier.isPath rootAlias = true) :
    Identifier.isPath predicate.field = true := by
  obtain ⟨path, isPath, ⟨_, same⟩ | ⟨_, same⟩⟩ := onPath
  · rw [same]
    exact isPath
  · rw [same]
    exact Identifier.is_path_qualified aliasPath isPath

end Predicate

inductive Call.SameShape : Call → Call → Prop where
  | predicate {left right : Predicate} (shape : left.SameShape right) :
      SameShape (.addPredicate left) (.addPredicate right)
  | same (call : Call) : SameShape call call

theorem Call.same_shape_refl (calls : List Call) : List.Forall₂ Call.SameShape calls calls :=
  List.forall₂_same.mpr fun call _ => .same call

theorem Call.same_shape_of_predicates {lefts rights : List Predicate}
    (shapes : List.Forall₂ Predicate.SameShape lefts rights) :
    List.Forall₂ Call.SameShape (lefts.map .addPredicate) (rights.map .addPredicate) := by
  induction shapes with
  | nil => exact .nil
  | cons head _ induction => exact .cons (.predicate head) induction

namespace Request

/-- Two requests that differ in their filter at most. The options of the other stages count by
what is found under their keys, so a key that the settings share with the filter is not free. -/
structure SameRest (left right : Request) : Prop where
  access : left.access = right.access
  settings : left.settings = right.settings
  others : ∀ key ∈ [left.settings.orderbyKey, left.settings.expandKey, left.settings.topKey,
    left.settings.skipKey], left.option key = right.option key

namespace SameRest

variable {left right : Request}

theorem read_sorts (rest : SameRest left right) : left.readSorts = right.readSorts :=
  read_sorts_congr rest.access rest.settings (rest.others left.settings.orderbyKey (by simp))

theorem read_expansions (rest : SameRest left right) :
    left.readExpansions = right.readExpansions :=
  read_expansions_congr rest.access rest.settings (rest.others left.settings.expandKey (by simp))

theorem same_page (rest : SameRest left right) :
    Page.ofSettings left.options left.settings = Page.ofSettings right.options right.settings := by
  have skip := rest.others left.settings.skipKey (by simp)
  have top := rest.others left.settings.topKey (by simp)
  unfold option at skip top
  unfold Page.ofSettings Page.read
  rw [skip, top, rest.settings]

theorem apply_rest (rest : SameRest left right) :
    left.applyRest.calls = right.applyRest.calls ∧
      left.applyRest.result = right.applyRest.result := by
  have expansionsAfter (request : Request) (sorts : List SortKey) :
      readExpansions { request with sorts := sorts } = request.readExpansions := rfl
  unfold applyRest applySorts
  rw [rest.read_sorts]
  cases right.readSorts with
  | error failure => exact ⟨rfl, rfl⟩
  | ok sorts =>
      simp only [Stage.andThen, applyExpansions, expansionsAfter, rest.read_expansions]
      cases right.readExpansions with
      | error failure => simp only [rest.settings, and_self]
      | ok expansions =>
          have page := rest.same_page
          rw [rest.settings] at page
          simp only [applyPage, page, rest.settings, and_self]

end SameRest

theorem predicates_on_paths {request : Request} {predicates : List Predicate}
    (taken : request.readPredicates = .ok predicates) :
    ∀ predicate ∈ predicates, predicate.IsOnPath request.settings.rootAlias := by
  obtain ⟨_, _, resolved⟩ := (request.read_predicates_iff predicates).mp taken
  intro predicate member
  obtain ⟨path, isPath, qualified⟩ := Scope.resolve_all_on_paths resolved predicate member
  exact Predicate.is_on_path_of_qualified isPath qualified

theorem rest_adds_no_predicate (request : Request) (sorts : List SortKey)
    (expansions : List String) (page : Page) (predicate : Predicate) :
    .addPredicate predicate ∉ request.restCalls sorts expansions page := by
  unfold restCalls pageCalls
  split <;> split <;> simp

theorem apply_rest_adds_no_predicate (request : Request) (predicate : Predicate) :
    .addPredicate predicate ∉ request.applyRest.calls := by
  rcases request.apply_rest_cases with ⟨_, _, stages⟩ | ⟨_, _, _, _, stages⟩ | ⟨_, _, _, _, stages⟩
  · simp [stages]
  · simp [stages]
  · rw [stages]
    exact request.rest_adds_no_predicate _ _ _ predicate

theorem apply_calls_on_paths (request : Request) (fresh : request.page = none)
    {predicate : Predicate} (called : .addPredicate predicate ∈ request.apply.calls) :
    predicate.IsOnPath request.settings.rootAlias := by
  rw [apply_fresh request fresh] at called
  cases read : request.readPredicates with
  | error failure =>
      rw [read] at called
      cases called
  | ok predicates =>
      rw [read] at called
      rcases List.mem_append.mp called with pushed | later
      · obtain ⟨other, member, same⟩ := List.mem_map.mp pushed
        cases same
        exact predicates_on_paths read predicate member
      · exact absurd later (apply_rest_adds_no_predicate request predicate)

theorem apply_same_shape {left right : Request} (rest : SameRest left right)
    (leftFresh : left.page = none) (rightFresh : right.page = none)
    {leftClauses rightClauses : List Clause}
    (leftRead : Filter.read .standard left.settings.strictness
      (left.option left.settings.filterKey) = .ok leftClauses)
    (rightRead : Filter.read .standard right.settings.strictness
      (right.option right.settings.filterKey) = .ok rightClauses)
    (agree : List.Forall₂ Clause.Agrees leftClauses rightClauses)
    (leftReadable : ∀ clause ∈ leftClauses, clause.IsReadable)
    (rightReadable : ∀ clause ∈ rightClauses, clause.IsReadable) :
    List.Forall₂ Call.SameShape left.apply.calls right.apply.calls ∧
      left.apply.result = right.apply.result := by
  have sameScope : left.scope = right.scope := by
    unfold scope
    rw [rest.access, rest.settings]
  rw [apply_fresh left leftFresh, apply_fresh right rightFresh]
  simp only [readPredicates, leftRead, rightRead, sameScope]
  rcases right.scope.resolve_all_same_shape
      (right.scope.resolve_each_same_outcome agree leftReadable rightReadable) with
    ⟨failure, leftFailed, rightFailed⟩ |
    ⟨leftPredicates, rightPredicates, leftResolved, rightResolved, shapes⟩
  · simp only [leftFailed, rightFailed]
    exact ⟨.nil, trivial⟩
  · obtain ⟨sameCalls, sameResult⟩ := rest.apply_rest
    simp only [leftResolved, rightResolved, sameCalls]
    refine ⟨?_, sameResult⟩
    exact List.rel_append (Call.same_shape_of_predicates shapes)
      (Call.same_shape_refl right.applyRest.calls)

end Request

end QueryOptions
