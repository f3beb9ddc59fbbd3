import Mathlib.Data.List.TakeWhile
import QueryOptions.Proofs.Request.Dropping
import QueryOptions.Proofs.Session.Steps

/-!
What a session makes of its history. The first step that applies the request fixes what the backend
receives, under the lists given up to then; the lists of later steps have no effect, and every
execution is one more entry of the log.
-/

namespace QueryOptions

namespace Recorder

def withExecutions (recorder : Recorder) (count : Nat) : Recorder :=
  { recorder with log := recorder.log ++ List.replicate count .execution }

theorem with_no_execution (recorder : Recorder) : recorder.withExecutions 0 = recorder := by
  unfold withExecutions
  rw [List.replicate_zero, List.append_nil]

theorem with_executions_again (recorder : Recorder) (first second : Nat) :
    (recorder.withExecutions first).withExecutions second =
      recorder.withExecutions (first + second) := by
  unfold withExecutions
  rw [← List.replicate_append_replicate, List.append_assoc]

theorem receive_all (recorder : Recorder) (calls : List Call) :
    Backend.receiveAll recorder calls =
      { recorder with log := recorder.log ++ calls.map .call } := by
  unfold Backend.receiveAll
  induction calls generalizing recorder with
  | nil => simp
  | cons call calls induction =>
      rw [List.foldl_cons, induction]
      simp [Backend.receive]

end Recorder

namespace Session

namespace Step

def filters? : Step → Option AllowList
  | .allowFilters fields => some fields
  | _ => none

def sorts? : Step → Option AllowList
  | .allowSorts fields => some fields
  | _ => none

def expands? : Step → Option AllowList
  | .allowExpands relations => some relations
  | _ => none

end Step

def lastGiven (given : Step → Option AllowList) (initial : AllowList) (steps : List Step) :
    AllowList :=
  (steps.filterMap given).getLastD initial

def lastAccess (initial : Access) (steps : List Step) : Access where
  filterable := lastGiven Step.filters? initial.filterable steps
  sortable := lastGiven Step.sorts? initial.sortable steps
  expandable := lastGiven Step.expands? initial.expandable steps

/-- The access of the lists given before the first step that applies the request. -/
def settledAccess (initial : Access) (steps : List Step) : Access :=
  lastAccess initial (steps.takeWhile fun step => !step.applies)

theorem giving_before_first {steps : List Step} :
    ∀ step ∈ steps.takeWhile fun step => !step.applies, step.applies = false := by
  intro step member
  have all := List.all_takeWhile (p := fun step : Step => !step.applies) (l := steps)
  simpa using List.all_eq_true.mp all step member

theorem no_execution_of_giving {steps : List Step} (giving : ∀ step ∈ steps, step.applies = false) :
    steps.countP Step.executes = 0 := by
  rw [List.countP_eq_zero]
  intro step member
  rw [Step.executes_of_gives (giving step member)]
  exact Bool.false_ne_true

theorem split_at_first (steps : List Step) (applied : steps.any Step.applies = true) :
    ∃ first rest, steps = steps.takeWhile (fun step => !step.applies) ++ first :: rest ∧
      first.applies = true := by
  induction steps with
  | nil => cases applied
  | cons step steps induction =>
      cases applies : step.applies with
      | true => exact ⟨step, steps, by simp [applies], applies⟩
      | false =>
          simp only [List.any_cons, applies, Bool.false_or] at applied
          obtain ⟨first, rest, parts, firstApplies⟩ := induction applied
          refine ⟨first, rest, ?_, firstApplies⟩
          rw [List.takeWhile_cons_of_pos (by simp [applies]), List.cons_append, ← parts]

theorem last_given_cons (given : Step → Option AllowList) (initial : AllowList) (step : Step)
    (steps : List Step) :
    lastGiven given initial (step :: steps) =
      lastGiven given ((given step).getD initial) steps := by
  unfold lastGiven
  cases found : given step with
  | none => rw [List.filterMap_cons_none found, Option.getD_none]
  | some fields => rw [List.filterMap_cons_some found, List.getLastD_cons, Option.getD_some]

theorem last_access_cons (initial : Access) (step : Step) (steps : List Step) :
    lastAccess initial (step :: steps) = lastAccess (step.allow initial) steps := by
  unfold lastAccess
  simp only [last_given_cons]
  cases step <;> rfl

section Backend

variable {β : Type} [Backend β]

theorem run_allowing (session : Session β) {steps : List Step}
    (giving : ∀ step ∈ steps, step.applies = false) :
    session.run steps = session.withAccess (lastAccess session.request.access steps) := by
  induction steps generalizing session with
  | nil => rfl
  | cons step steps induction =>
      rw [run_cons, session.perform_allow (giving step List.mem_cons_self),
        induction _ fun other member => giving other (List.mem_cons_of_mem step member),
        last_access_cons]
      rfl

end Backend

def later (session : Session Recorder) (access : Access) (executions : Nat) : Session Recorder :=
  ⟨{ session.request with access := access }, session.backend.withExecutions executions⟩

theorem later_later (session : Session Recorder) (early late : Access) (first second : Nat) :
    (session.later early first).later late second = session.later late (first + second) := by
  simp only [later, Recorder.with_executions_again]

theorem later_of_same (session : Session Recorder) :
    session.later session.request.access 0 = session := by
  rw [later, Recorder.with_no_execution]

def taken (session : Session Recorder) (predicates : List Predicate) (sorts : List SortKey)
    (expansions : List String) : Session Recorder :=
  let page := Page.ofSettings session.request.options session.request.settings
  let calls := predicates.map .addPredicate ++ session.request.restCalls sorts expansions page
  { request :=
      { session.request with
        predicates := session.request.predicates ++ predicates
        sorts := sorts
        expansions := expansions
        page := some page }
    backend := { session.backend with log := session.backend.log ++ calls.map .call } }

theorem perform_applying {session applied : Session Recorder} {page : Page}
    (applying : session.apply = (applied, .ok page)) {step : Step} (applies : step.applies = true) :
    (session.perform step).1 =
      applied.later applied.request.access (if step.executes then 1 else 0) := by
  rw [session.perform_of_ok applies (congrArg Prod.snd applying), applying]
  by_cases executes : step.executes = true
  · rw [if_pos executes, if_pos executes]
    rfl
  · rw [if_neg executes, if_neg executes, later_of_same]

/-- After the request has been applied, steps only change the access and add executions. -/
theorem run_applied {session : Session Recorder} {page : Page}
    (applied : session.request.page = some page) (steps : List Step) :
    ∃ access, session.run steps = session.later access (steps.countP Step.executes) := by
  induction steps generalizing session with
  | nil => exact ⟨session.request.access, session.later_of_same.symm⟩
  | cons step steps induction =>
      have next : ∃ early, (session.perform step).1 =
          session.later early (if step.executes then 1 else 0) := by
        cases applies : step.applies with
        | true => exact ⟨_, perform_applying (apply_again applied) applies⟩
        | false =>
            refine ⟨step.allow session.request.access, ?_⟩
            rw [session.perform_allow applies, Step.executes_of_gives applies,
              if_neg Bool.false_ne_true, later, Recorder.with_no_execution]
            rfl
      obtain ⟨early, performed⟩ := next
      have stillApplied : (session.later early (if step.executes then 1 else 0)).request.page =
          some page := applied
      obtain ⟨access, ran⟩ := induction stillApplied
      refine ⟨access, ?_⟩
      rw [run_cons, performed, ran, later_later, List.countP_cons, Nat.add_comm]

theorem run_from_first {session : Session Recorder} (fresh : session.request.page = none)
    {predicates : List Predicate} {sorts : List SortKey} {expansions : List String}
    (readFilter : session.request.readPredicates = .ok predicates)
    (readSort : session.request.readSorts = .ok sorts)
    (readExpand : session.request.readExpansions = .ok expansions) {first : Step}
    (applies : first.applies = true) (rest : List Step) :
    ∃ access, session.run (first :: rest) =
      (session.taken predicates sorts expansions).later access
        ((first :: rest).countP Step.executes) := by
  have applying : session.apply = (session.taken predicates sorts expansions,
      .ok (Page.ofSettings session.request.options session.request.settings)) := by
    unfold apply
    rw [session.request.apply_of_reads fresh readFilter readSort readExpand]
    dsimp only
    rw [Recorder.receive_all]
    rfl
  have settled : ((session.taken predicates sorts expansions).later session.request.access
      (if first.executes then 1 else 0)).request.page =
        some (Page.ofSettings session.request.options session.request.settings) := rfl
  obtain ⟨access, ran⟩ := run_applied settled rest
  refine ⟨access, ?_⟩
  rw [run_cons, perform_applying applying applies, List.countP_cons, Nat.add_comm, ← later_later]
  exact ran

def start (options : List (String × Value)) (access : Access) (settings : Settings)
    (recorder : Recorder) : Session Recorder :=
  ⟨{ options := options, access := access, settings := settings }, recorder⟩

/-- The log of a lenient session is empty until the first step that applies the request. From then
on it is the calls of the options under the lists given before that step, and one entry for each
execution, failed or not; every application gives the same page. -/
theorem log_is_application_and_executions (options : List (String × Value)) (access : Access)
    (settings : Settings) (recorder : Recorder) (steps : List Step) (blank : recorder.log = [])
    (lenient : settings.strictness = .lenient)
    (short : (start options access settings recorder).request.HasShortLiterals) :
    let session := (start options access settings recorder).run steps
    let settled := (start options (settledAccess access steps) settings recorder).request
    let page := Page.ofSettings options settings
    ∃ predicates sorts expansions,
      settled.readPredicates = .ok predicates ∧ settled.readSorts = .ok sorts ∧
        settled.readExpansions = .ok expansions ∧
        (if steps.any Step.applies then
          session.backend.log =
              (predicates.map Call.addPredicate ++
                  settled.restCalls sorts expansions page).map Event.call ++
                List.replicate (steps.countP Step.executes) .execution ∧
            session.request.predicates = predicates ∧ session.request.sorts = sorts ∧
            session.request.expansions = expansions
        else
          session.backend.log = [] ∧ session.request.predicates = [] ∧
            session.request.sorts = [] ∧ session.request.expansions = []) ∧
        (session.perform .apply).2 = .page (.ok page) := by
  intro session settled page
  obtain ⟨predicates, sorts, expansions, readFilter, readSort, readExpand⟩ :=
    settled.lenient_reads lenient short
  refine ⟨predicates, sorts, expansions, readFilter, readSort, readExpand, ?_⟩
  have opened : (start options access settings recorder).run
      (steps.takeWhile fun step => !step.applies) = ⟨settled, recorder⟩ :=
    run_allowing _ giving_before_first
  by_cases applied : steps.any Step.applies = true
  · rw [if_pos applied]
    obtain ⟨first, rest, parts, applies⟩ := split_at_first steps applied
    have fresh : (Session.mk settled recorder).request.page = none := rfl
    obtain ⟨last, ran⟩ := run_from_first fresh readFilter readSort readExpand applies rest
    have count : steps.countP Step.executes = (first :: rest).countP Step.executes := by
      conv_lhs => rw [parts, List.countP_append, no_execution_of_giving giving_before_first]
      exact Nat.zero_add _
    have ended : session = (taken ⟨settled, recorder⟩ predicates sorts expansions).later last
        (steps.countP Step.executes) := by
      rw [count, ← ran, ← opened, ← run_append, ← parts]
    rw [ended]
    refine ⟨⟨?_, rfl, rfl, rfl⟩, rfl⟩
    change (recorder.log ++ _) ++ _ = _
    rw [blank, List.nil_append]
    rfl
  · rw [if_neg applied]
    have whole : steps.takeWhile (fun step => !step.applies) = steps := by
      rw [List.takeWhile_eq_self_iff]
      simpa using applied
    have ended : session = ⟨settled, recorder⟩ := by
      rw [← opened, whole]
    have result : settled.apply.result = .ok page := by
      rw [settled.apply_of_reads rfl readFilter readSort readExpand]
      rfl
    rw [ended]
    exact ⟨⟨blank, rfl, rfl, rfl⟩, congrArg Reply.page result⟩

theorem reopened_log_is_application_and_executions :
    let steps : List Step := [.allowFilters ["age"], .allowFilters ["name"], .execute,
      .allowFilters [], .respond]
    let options := [("$filter", Value.text "name eq null and age gt 18"),
      ("$top", Value.text "5")]
    let fresh := start options {} {} { failure := some "down" }
    fresh.request.HasShortLiterals ∧
      (fresh.run steps).backend.log = [.call (.addPredicate ⟨"entity.name IS NULL", none,
        "entity.name", .isNull⟩), .call (.setLimit 5), .execution, .execution] := by
  intro steps options fresh
  have short : fresh.request.HasShortLiterals := by
    intro clauses read
    have known : Filter.read .standard .lenient (.text "name eq null and age gt 18") =
        .ok [⟨"name", .isNull, none, 0⟩, ⟨"age", .comparison .gt, some "18", 1⟩] :=
      ok_of_to_option (by decide +kernel)
    cases known.symm.trans read
    exact Clause.readable_of_short (by decide)
  obtain ⟨predicates, sorts, expansions, readFilter, readSort, readExpand, stands, _⟩ :=
    log_is_application_and_executions options {} {} { failure := some "down" } steps rfl rfl short
  let settled := (start options (settledAccess {} steps) {} { failure := some "down" }).request
  have knownFilter : settled.readPredicates =
      .ok [⟨"entity.name IS NULL", none, "entity.name", .isNull⟩] :=
    ok_of_to_option (by decide +kernel)
  have knownSort : settled.readSorts = .ok [] := rfl
  have knownExpand : settled.readExpansions = .ok [] := rfl
  have page : Page.ofSettings options {} = ⟨0, 5⟩ := by decide +kernel
  cases knownFilter.symm.trans readFilter
  cases knownSort.symm.trans readSort
  cases knownExpand.symm.trans readExpand
  have applied : steps.any Step.applies = true := rfl
  rw [if_pos applied, page] at stands
  exact ⟨short, stands.1⟩

end Session

end QueryOptions
