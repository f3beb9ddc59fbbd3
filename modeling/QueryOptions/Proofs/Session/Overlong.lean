import QueryOptions.Proofs.Grammar.Legible
import QueryOptions.Proofs.Request.Dropping
import QueryOptions.Proofs.Request.Numerals
import QueryOptions.Proofs.Session.History

/-!
Overlong integers. Lenient reading drops whatever it cannot use, with one exception: an integer of
too many digits is no literal, and when a clause on an open field compares with it, the whole
request fails. Nothing else fails.
-/

namespace QueryOptions

/-- A result that fails for an integer of too many digits if such an integer is due, and returns
otherwise. -/
inductive FailsWhen {ε α : Type} (wrap : IntegerTooLong → ε) (due : Prop) : Except ε α → Prop where
  | fails {failure : IntegerTooLong} (isDue : due)
      (tooLong : IntegerTooLong.limit < failure.digits) : FailsWhen wrap due (.error (wrap failure))
  | returns (notDue : ¬due) (value : α) : FailsWhen wrap due (.ok value)

namespace FailsWhen

variable {ε α β : Type} {wrap : IntegerTooLong → ε} {due later : Prop} {result : Except ε α}

theorem congr (outcome : FailsWhen wrap due result) (same : due ↔ later) :
    FailsWhen wrap later result := by
  rwa [← propext same]

theorem bind {next : α → Except ε β} (first : FailsWhen wrap due result)
    (rest : ∀ value, FailsWhen wrap later (next value)) :
    FailsWhen wrap (due ∨ later) (result >>= next) := by
  cases first with
  | fails isDue tooLong => exact .fails (.inl isDue) tooLong
  | returns notDue value => exact (rest value).congr (by simp [notDue])

theorem then_return (first : FailsWhen wrap due result) (next : α → β) :
    FailsWhen wrap due (do return next (← result)) :=
  (first.bind fun value => .returns not_false (next value)).congr (by simp)

theorem returns_iff (outcome : FailsWhen wrap due result) :
    (∃ value, result = .ok value) ↔ ¬due := by
  cases outcome with
  | fails isDue => simp [isDue]
  | returns notDue value => simp [notDue]

theorem failure_of_error (outcome : FailsWhen wrap due result) {failure : ε}
    (failed : result = .error failure) :
    ∃ digits, IntegerTooLong.limit < digits ∧ failure = wrap ⟨digits⟩ := by
  cases outcome with
  | fails _ tooLong =>
      cases failed
      exact ⟨_, tooLong, rfl⟩
  | returns => cases failed

end FailsWhen

theorem Literal.of_raw_fails (raw : String) : FailsWhen id (IsOverlong raw) (ofRaw raw) := by
  by_cases overlong : IsOverlong raw
  · obtain ⟨digits, tooLong, failed⟩ := of_raw_overlong overlong
    rw [failed]
    exact .fails overlong tooLong
  · obtain ⟨literal, read⟩ := of_raw_readable overlong
    rw [read]
    exact .returns overlong literal

/-- A clause whose operator binds its raw value, where the raw value is an overlong numeral. -/
def Clause.IsOverlong (clause : Clause) : Prop :=
  clause.operator.bindsLiteral = true ∧ Literal.IsOverlong (clause.rawValue.getD "")

theorem Operator.bind_fails (operator : Operator) (raw : String) :
    FailsWhen id (operator.bindsLiteral = true ∧ Literal.IsOverlong raw) (operator.bind raw) := by
  have read := Literal.of_raw_fails raw
  cases operator with
  | isNull => exact .returns (by simp [bindsLiteral]) none
  | isNotNull => exact .returns (by simp [bindsLiteral]) none
  | comparison kind =>
      exact (read.then_return some).congr (by simp [bindsLiteral])
  | pattern kind =>
      exact (read.then_return fun literal => some (Literal.text (kind.wrap literal.asText))).congr
        (by simp [bindsLiteral])

namespace Scope

variable (scope : Scope)

def Authorises (clause : Clause) : Prop :=
  Identifier.isPath clause.field = true ∧ scope.access.filterable.Opens clause.field

theorem predicate_fails (clause : Clause) (index : Int) :
    FailsWhen id clause.IsOverlong (scope.predicate clause index) :=
  (clause.operator.bind_fails (clause.rawValue.getD "")).then_return _

variable (lenient : scope.strictness = .lenient)

include lenient

/-- Only an authorised clause fails: every other one is dropped before its literal is read. -/
theorem resolve_fails (clause : Clause) :
    FailsWhen .integerTooLong (scope.Authorises clause ∧ clause.IsOverlong)
      (scope.resolve clause) := by
  rw [resolve_lenient scope lenient]
  split
  · rename_i authorised
    have built := scope.predicate_fails clause clause.position
    generalize scope.predicate clause clause.position = result at built
    cases built with
    | fails overlong tooLong => exact .fails ⟨authorised, overlong⟩ tooLong
    | returns short predicate => exact .returns (fun due => short due.2) (some predicate)
  · rename_i authorised
    exact .returns (fun due => authorised due.1) none

theorem resolve_all_fails (clauses : List Clause) :
    FailsWhen .integerTooLong
      (∃ clause ∈ clauses, scope.Authorises clause ∧ clause.IsOverlong)
      (scope.resolveAll clauses) := by
  induction clauses with
  | nil => exact .returns (by simp) []
  | cons clause clauses induction =>
      have parts := (scope.resolve_fails lenient clause).bind fun part =>
        induction.then_return fun predicates => part.toList ++ predicates
      exact parts.congr (by simp)

end Scope

namespace Request

/-- Some fragment of the filter is admitted as a clause that compares with an overlong integer. -/
def BindsOverlong (request : Request) : Prop :=
  ∃ (index : Nat) (fragment : String) (clause : Clause),
    ((request.option request.settings.filterKey).parts Filter.fragments)[index]? = some fragment ∧
      request.scope.AdmitsClause index fragment clause ∧ clause.IsOverlong

variable (request : Request) (lenient : request.settings.strictness = .lenient)

include lenient

theorem read_predicates_fails :
    FailsWhen .integerTooLong request.BindsOverlong request.readPredicates := by
  obtain ⟨clauses, read⟩ := Filter.read_lenient_returns .standard
    (request.option request.settings.filterKey)
  have same : (∃ clause ∈ clauses, request.scope.Authorises clause ∧ clause.IsOverlong) ↔
      request.BindsOverlong := by
    rw [Filter.read_eq_read_fragments] at read
    simp only [Filter.mem_read_fragments read, Int.zero_add]
    constructor
    · rintro ⟨clause, ⟨index, fragment, known, found⟩, authorised, overlong⟩
      exact ⟨index, fragment, clause, known, ⟨found, authorised⟩, overlong⟩
    · rintro ⟨index, fragment, clause, known, ⟨found, authorised⟩, overlong⟩
      exact ⟨clause, ⟨index, fragment, known, found⟩, authorised, overlong⟩
  have resolved := (request.scope.resolve_all_fails lenient clauses).congr same
  unfold readPredicates
  rw [lenient, read]
  dsimp only
  generalize request.scope.resolveAll clauses = result at resolved
  cases resolved with
  | fails overlong tooLong => exact .fails overlong tooLong
  | returns short predicates => exact .returns short predicates

theorem apply_fails :
    FailsWhen .integerTooLong (request.page = none ∧ request.BindsOverlong)
      request.apply.result := by
  cases known : request.page with
  | some page =>
      rw [apply_again known]
      exact .returns (by simp) page
  | none =>
      obtain ⟨sorts, expansions, readSort, readExpand⟩ := request.lenient_reads_rest lenient
      rw [request.apply_result known, readSort, readExpand]
      exact ((request.read_predicates_fails lenient).then_return _).congr (by simp)

omit lenient in
theorem binds_overlong_of_legible {request : Request} {text field raw : String}
    {operator : Operator} (legible : Clause.IsLegible text operator field (some raw))
    (asks : request.option request.settings.filterKey = .text text)
    (isPath : Identifier.isPath field = true) (opened : request.access.filterable.Opens field)
    (binds : operator.bindsLiteral = true) (overlong : Literal.IsOverlong raw) :
    request.BindsOverlong := by
  have parts : (Value.text (" and ".intercalate [text])).parts Filter.fragments = [text] :=
    Clause.parts_of_legible fun other member => by
      rw [List.mem_singleton.mp member]
      exact ⟨operator, field, some raw, legible⟩
  refine ⟨0, text, ⟨field, operator, some raw, 0⟩, ?_, ⟨legible.read 0, isPath, opened⟩, binds,
    overlong⟩
  rw [asks]
  exact congrArg (fun texts : List String => texts[0]?) parts

end Request

namespace Session

variable {β : Type} [Backend β]

/-- Applying a lenient request fails only on overlong integers: it gives the page unless the request
is fresh and some admitted clause of its filter compares with such an integer. Every other raw value
is read as a literal, and every other admitted clause becomes a predicate. -/
theorem lenient_fails_only_on_overlong (session : Session β)
    (lenient : session.request.settings.strictness = .lenient) :
    let request := session.request
    ((∃ page, session.apply.2 = .ok page) ↔ ¬(request.page = none ∧ request.BindsOverlong)) ∧
    (∀ page, session.apply.2 = .ok page →
      page = request.page.getD (.ofSettings request.options request.settings)) ∧
    (∀ failure, session.apply.2 = .error failure →
      ∃ digits, IntegerTooLong.limit < digits ∧ failure = .integerTooLong ⟨digits⟩) ∧
    (∀ raw, (∃ literal, Literal.ofRaw raw = .ok literal) ↔ ¬Literal.IsOverlong raw) ∧
    ∀ index fragment clause, request.scope.AdmitsClause index fragment clause →
      ((∃ predicate, request.scope.resolve clause = .ok (some predicate)) ↔
        ¬clause.IsOverlong) := by
  intro request
  have applied := request.apply_fails lenient
  refine ⟨applied.returns_iff, ?_, fun _ => applied.failure_of_error,
    fun raw => (Literal.of_raw_fails raw).returns_iff, ?_⟩
  · intro page returned
    cases known : request.page with
    | some earlier =>
        have again := congrArg Request.Stage.result (Request.apply_again known)
        exact Except.ok.inj (returned.symm.trans again)
    | none =>
        obtain ⟨_, _, _, _, _, _, samePage⟩ := request.apply_returns known returned
        exact samePage
  · rintro index fragment clause ⟨_, authorised⟩
    rw [Scope.resolve_lenient request.scope lenient, if_pos authorised]
    have built := request.scope.predicate_fails clause clause.position
    generalize request.scope.predicate clause clause.position = result at built
    cases built with
    | fails overlong => simp [overlong]
    | returns short predicate => simp [short]

def clumsy : Session Recorder :=
  start [("$filter", .text "age gt 18 or age eq"), ("$orderby", .text "age upwards"),
    ("$expand", .boolean true), ("$top", .text "many")] { filterable := ["name"] } {} {}

theorem clumsy_fails_only_on_overlong :
    clumsy.request.settings.strictness = .lenient ∧ clumsy.apply.2 = .ok ⟨0, 0⟩ ∧
      ¬clumsy.request.BindsOverlong := by
  have returned : clumsy.apply.2 = .ok ⟨0, 0⟩ := ok_of_to_option (by decide +kernel)
  have safe := (lenient_fails_only_on_overlong clumsy rfl).1.mp ⟨_, returned⟩
  exact ⟨rfl, returned, fun overlong => safe ⟨rfl, overlong⟩⟩

def comparingNines (count : Nat) : Session Recorder :=
  start [("$filter", .text ("age gt " ++ String.ofList (List.replicate count '9')))] {} {} {}

theorem comparing_nines_binds_overlong {count : Nat} (tooLong : IntegerTooLong.limit < count) :
    (comparingNines count).request.BindsOverlong := by
  have given : List.replicate count '9' ≠ [] := by
    rw [Ne, List.replicate_eq_nil_iff]
    omega
  have digits : (List.replicate count '9').all Text.isDigit = true := by
    rw [List.all_eq_true]
    intro c member
    rw [List.eq_of_mem_replicate member]
    decide
  generalize raw : String.ofList (List.replicate count '9') = nines
  have written : nines.toList = List.replicate count '9' := by rw [← raw, String.toList_ofList]
  have shaped : Agreement.Writes.IsShaped nines.toList :=
    written ▸ Agreement.Writes.signed_shaped false given (List.all_eq_true.mp digits)
  have path : Identifier.isPath "age" = true := by decide
  have legible : Clause.IsLegible ("age gt " ++ nines) (.comparison .gt) "age" (some nines) :=
    Clause.comparison_legible path shaped .gt (by simp)
  refine Request.binds_overlong_of_legible legible ?_ path (.inl rfl) rfl
    ⟨_, .inl written, digits, by rwa [List.length_replicate]⟩
  rw [← raw]
  rfl

theorem comparing_nines_raises {count : Nat} (tooLong : IntegerTooLong.limit < count) :
    ∃ digits, (comparingNines count).apply.2 = .error (.integerTooLong ⟨digits⟩) := by
  have overlong := comparing_nines_binds_overlong tooLong
  have outcome := (comparingNines count).request.apply_fails rfl
  change ∃ digits, (comparingNines count).request.apply.result = _
  generalize (comparingNines count).request.apply.result = result at outcome
  cases outcome with
  | fails _ _ => exact ⟨_, rfl⟩
  | returns safe => exact absurd ⟨rfl, overlong⟩ safe

/-- One digit too many makes a fresh lenient request fail. -/
theorem overlong_literal_raises :
    (comparingNines 4301).request.settings.strictness = .lenient ∧
      ∃ digits, (comparingNines 4301).apply.2 = .error (.integerTooLong ⟨digits⟩) :=
  ⟨rfl, comparing_nines_raises (by decide)⟩

end Session

end QueryOptions
