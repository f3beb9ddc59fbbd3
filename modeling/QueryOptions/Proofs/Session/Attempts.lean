import Mathlib.Data.List.Induction
import QueryOptions.Proofs.Session.History

/-!
Attempts that fail. A request whose filter cannot be read leaves nothing behind when it is applied,
so a session whose attempts fail there only passes every clause on at most once. Stages behind the
filter come too late for that: when one of them fails, the predicates have already been passed on,
and the next attempt passes them on again.
-/

namespace QueryOptions

namespace Scope

theorem resolve_builds {scope : Scope} {clause : Clause} {predicate : Predicate}
    (resolved : scope.resolve clause = .ok (some predicate)) :
    scope.predicate clause clause.position = .ok predicate := by
  unfold resolve at resolved
  cases settled : scope.strictness.settle (scope.authorise clause.field) with
  | error rejection => rw [settled] at resolved; cases resolved
  | ok part =>
      rw [settled] at resolved
      cases part with
      | none => cases resolved
      | some _ =>
          rw [Option.getD_none] at resolved
          cases built : scope.predicate clause clause.position with
          | error failure => rw [built] at resolved; cases resolved
          | ok other =>
              rw [built] at resolved
              cases resolved
              rfl

theorem resolved_from_some (scope : Scope) {clauses : List Clause}
    {predicates : List Predicate} (resolved : scope.resolveAll clauses = .ok predicates) :
    ∃ chosen, chosen.Sublist clauses ∧
      List.Forall₂ (fun clause predicate => scope.predicate clause clause.position = .ok predicate)
        chosen predicates := by
  induction clauses generalizing predicates with
  | nil =>
      cases resolved
      exact ⟨[], List.Sublist.slnil, .nil⟩
  | cons clause clauses induction =>
      unfold resolveAll at resolved
      obtain ⟨part, head, others⟩ := parts_of_bind resolved
      obtain ⟨rest, tail, joined⟩ := parts_of_bind others
      cases joined
      obtain ⟨chosen, sublist, gives⟩ := induction tail
      cases part with
      | none => exact ⟨chosen, sublist.cons clause, gives⟩
      | some predicate =>
          exact ⟨clause :: chosen, sublist.cons_cons clause, .cons (resolve_builds head) gives⟩

end Scope

namespace Request

def clauses (request : Request) : List Clause :=
  (Filter.read .standard request.settings.strictness
    (request.option request.settings.filterKey)).toOption.getD []

theorem predicates_from_clauses {request : Request} {predicates : List Predicate}
    (readFilter : request.readPredicates = .ok predicates) :
    ∃ chosen, chosen.Sublist request.clauses ∧
      List.Forall₂ (fun clause predicate =>
        request.scope.predicate clause clause.position = .ok predicate) chosen predicates := by
  obtain ⟨others, parsed, resolved⟩ := (request.read_predicates_iff predicates).mp readFilter
  unfold clauses
  rw [parsed]
  exact request.scope.resolved_from_some resolved

theorem failed_rest_keeps_page (request : Request) (fresh : request.page = none)
    {failure : Failure} (failed : request.applyRest.result = .error failure) :
    request.applyRest.request.page = none := by
  rcases request.apply_rest_cases with ⟨_, _, stages⟩ | ⟨_, _, _, _, stages⟩ | ⟨_, _, _, _, stages⟩
  · rw [stages]
    exact fresh
  · rw [stages]
    exact fresh
  · rw [stages] at failed
    cases failed

theorem lenient_fails_at_filter {request : Request}
    (lenient : request.settings.strictness = .lenient) {failure : Failure}
    (failed : request.apply.result = .error failure) :
    request.readPredicates = .error failure := by
  have fresh : request.page = none := by
    cases known : request.page with
    | none => rfl
    | some page =>
        rw [apply_again known] at failed
        cases failed
  obtain ⟨sorts, expansions, readSort, readExpand⟩ := request.lenient_reads_rest lenient
  rw [request.apply_result fresh, readSort, readExpand] at failed
  cases readFilter : request.readPredicates with
  | error other =>
      rw [readFilter] at failed
      cases failed
      rfl
  | ok predicates =>
      rw [readFilter] at failed
      cases failed

end Request

namespace Session

def Raises {β : Type} [Backend β] (session : Session β) (step : Step) : Prop :=
  step.applies = true ∧ ∃ failure, session.apply.2 = .error failure

theorem raising_is_fresh {β : Type} [Backend β] {session : Session β} {step : Step}
    (raises : session.Raises step) : session.request.page = none := by
  obtain ⟨_, failure, failed⟩ := raises
  cases known : session.request.page with
  | none => rfl
  | some page =>
      rw [apply_again known] at failed
      cases failed

theorem unread_filter_changes_nothing {β : Type} [Backend β] {session : Session β} {step : Step}
    (raises : session.Raises step) {failure : Failure}
    (unread : session.request.readPredicates = .error failure) :
    (session.perform step).1 = session := by
  have fresh := raising_is_fresh raises
  obtain ⟨applies, _, failed⟩ := raises
  rw [session.perform_of_error applies failed]
  unfold apply
  rw [session.request.apply_fresh fresh, unread]
  rfl

def pushed (log : List Event) : List Predicate :=
  log.filterMap fun
    | .call (.addPredicate predicate) => some predicate
    | _ => none

theorem pushed_append (first second : List Event) :
    pushed (first ++ second) = pushed first ++ pushed second :=
  List.filterMap_append

theorem predicates_are_pushed (predicates : List Predicate) :
    pushed (predicates.map fun predicate => .call (.addPredicate predicate)) = predicates := by
  induction predicates with
  | nil => rfl
  | cons predicate predicates induction => exact congrArg (predicate :: ·) induction

theorem calls_push_nothing {calls : List Call}
    (others : ∀ predicate, .addPredicate predicate ∉ calls) : pushed (calls.map .call) = [] := by
  rw [pushed, List.filterMap_eq_nil_iff]
  intro event member
  obtain ⟨call, inCalls, rfl⟩ := List.mem_map.mp member
  cases call with
  | addPredicate predicate => exact absurd inCalls (others predicate)
  | _ => rfl

theorem executions_push_nothing (count : Nat) : pushed (List.replicate count .execution) = [] := by
  rw [pushed, List.filterMap_eq_nil_iff]
  intro event member
  rw [List.eq_of_mem_replicate member]

theorem pushed_of_taken {session : Session Recorder} (blank : session.backend.log = [])
    (predicates : List Predicate) (sorts : List SortKey) (expansions : List String)
    (access : Access) (executions : Nat) :
    pushed ((session.taken predicates sorts expansions).later access executions).backend.log =
      predicates := by
  change pushed (session.backend.log ++ List.map Event.call (_ ++ _) ++ List.replicate _ _) = _
  rw [blank, List.nil_append, List.map_append, List.map_map, pushed_append, pushed_append,
    calls_push_nothing fun predicate =>
      session.request.rest_adds_no_predicate sorts expansions _ predicate,
    executions_push_nothing, List.append_nil, List.append_nil]
  exact predicates_are_pushed predicates

/-- An attempt that fails behind its filter has passed all predicates on. -/
theorem late_failure_leaves_predicates {session : Session Recorder} {step : Step}
    (raises : session.Raises step) {predicates : List Predicate}
    (readFilter : session.request.readPredicates = .ok predicates) :
    pushed (session.perform step).1.backend.log = pushed session.backend.log ++ predicates ∧
      (session.perform step).1.request.predicates = session.request.predicates ++ predicates ∧
      (session.perform step).1.request.page = none := by
  have fresh := raising_is_fresh raises
  obtain ⟨applies, failure, failed⟩ := raises
  have stages := session.request.apply_fresh fresh
  rw [readFilter] at stages
  dsimp only at stages
  have unfinished : session.request.applyRest.request.page = none := by
    have restFails : session.request.applyRest.result = .error failure := by
      change session.request.apply.result = _ at failed
      rwa [stages] at failed
    exact session.request.failed_rest_keeps_page fresh restFails
  rw [session.perform_of_error applies failed]
  unfold apply
  rw [stages]
  dsimp only
  rw [Recorder.receive_all]
  refine ⟨?_, rfl, unfinished⟩
  rw [List.map_append, pushed_append, List.map_map, pushed_append]
  rw [calls_push_nothing fun predicate => session.request.apply_rest_adds_no_predicate predicate,
    List.append_nil]
  exact congrArg _ (predicates_are_pushed predicates)

/-- What a session can be as long as its attempts fail at the filter only: as it was at the start
but for its access, or applied once under some access. -/
inductive PassedOnce (options : List (String × Value)) (settings : Settings)
    (recorder : Recorder) : Session Recorder → Prop where
  | waiting (access : Access) :
      PassedOnce options settings recorder (start options access settings recorder)
  | applied (access : Access) {predicates : List Predicate} (sorts : List SortKey)
      (expansions : List String)
      (readFilter :
        (start options access settings recorder).request.readPredicates = .ok predicates)
      (late : Access) (executions : Nat) :
      PassedOnce options settings recorder
        (((start options access settings recorder).taken predicates sorts expansions).later
          late executions)

namespace PassedOnce

variable {options : List (String × Value)} {settings : Settings} {recorder : Recorder}

theorem after_step {session : Session Recorder}
    (once : PassedOnce options settings recorder session) {step : Step}
    (filterFirst : session.Raises step →
      ∃ failure, session.request.readPredicates = .error failure) :
    PassedOnce options settings recorder (session.perform step).1 := by
  cases once with
  | waiting access =>
      cases applies : step.applies with
      | false =>
          rw [perform_allow _ applies]
          exact .waiting _
      | true =>
          cases result : (start options access settings recorder).apply.2 with
          | error failure =>
              have raises : Raises (start options access settings recorder) step :=
                ⟨applies, failure, result⟩
              obtain ⟨reason, unread⟩ := filterFirst raises
              rw [unread_filter_changes_nothing raises unread]
              exact .waiting access
          | ok page =>
              obtain ⟨predicates, sorts, expansions, readFilter, readSort, readExpand, _⟩ :=
                Request.apply_returns _ rfl result
              obtain ⟨late, ran⟩ := run_from_first rfl readFilter readSort readExpand applies []
              rw [run_cons, run_nil] at ran
              rw [ran]
              exact .applied access sorts expansions readFilter late _
  | @applied access predicates sorts expansions readFilter late executions =>
      have settled : (((start options access settings recorder).taken predicates sorts
          expansions).later late executions).request.page =
            some (Page.ofSettings options settings) := rfl
      obtain ⟨later, ran⟩ := run_applied settled [step]
      rw [run_cons, run_nil, later_later] at ran
      rw [ran]
      exact .applied access sorts expansions readFilter later _

theorem pushes_clauses_once (blank : recorder.log = []) {session : Session Recorder}
    (once : PassedOnce options settings recorder session) (access : Access) :
    let request := (start options access settings recorder).request
    ∃ chosen, chosen.Sublist request.clauses ∧
      List.Forall₂ (fun clause predicate =>
        request.scope.predicate clause clause.position = .ok predicate)
        chosen (pushed session.backend.log) := by
  intro request
  cases once with
  | waiting other =>
      have nothing : pushed (start options other settings recorder).backend.log = [] :=
        congrArg pushed blank
      rw [nothing]
      exact ⟨[], List.nil_sublist _, .nil⟩
  | applied other sorts expansions readFilter late executions =>
      rw [pushed_of_taken blank]
      have chosen := Request.predicates_from_clauses readFilter
      exact chosen

end PassedOnce

/-- As long as attempts fail at the filter only, every one of them leaves the session as it was,
and every clause of the filter is passed on at most once, however the access changes in between. -/
theorem filter_failures_leave_clauses_passed_once (options : List (String × Value))
    (access : Access) (settings : Settings) (recorder : Recorder) (steps : List Step)
    (blank : recorder.log = [])
    (filterFirst : ∀ earlier step rest, steps = earlier ++ step :: rest →
      ((start options access settings recorder).run earlier).Raises step →
        ∃ failure, ((start options access settings recorder).run earlier).request.readPredicates =
          .error failure) :
    let opened := start options access settings recorder
    (∀ earlier step rest, steps = earlier ++ step :: rest → (opened.run earlier).Raises step →
      ((opened.run earlier).perform step).1 = opened.run earlier) ∧
    ∃ chosen, chosen.Sublist opened.request.clauses ∧
      List.Forall₂ (fun clause predicate =>
        opened.request.scope.predicate clause clause.position = .ok predicate)
        chosen (pushed (opened.run steps).backend.log) := by
  intro opened
  constructor
  · intro earlier step rest parts raises
    obtain ⟨failure, unread⟩ := filterFirst earlier step rest parts raises
    exact unread_filter_changes_nothing raises unread
  · have once : PassedOnce options settings recorder (opened.run steps) := by
      -- Step by step from the start, as `filterFirst` speaks of the session before each step.
      induction steps using List.reverseRecOn with
      | nil => exact .waiting access
      | append_singleton steps step induction =>
          rw [run_append]
          refine PassedOnce.after_step (induction ?_) fun raises =>
            filterFirst steps step [] rfl raises
          intro earlier other rest parts raises
          refine filterFirst earlier other (rest ++ [step]) ?_ raises
          rw [parts, List.append_assoc]
          rfl
    exact once.pushes_clauses_once blank access

theorem widened_filter_leaves_clauses_passed_once :
    let steps : List Step := [.apply, .allowFilters ["age"], .execute]
    let opened := start [("$filter", .text "age gt 18")] { filterable := ["name"] }
      { strictness := .strict } {}
    opened.Raises .apply ∧ (opened.perform .apply).1 = opened ∧
      ∃ clause, opened.request.clauses = [clause] ∧
        List.Forall₂ (fun clause predicate =>
          opened.request.scope.predicate clause clause.position = .ok predicate)
          [clause] (pushed (opened.run steps).backend.log) := by
  intro steps opened
  have refused : opened.request.readPredicates.toOption = none := by decide +kernel
  have raises : opened.Raises .apply :=
    ⟨rfl, error_of_to_option (by decide +kernel)⟩
  have filterFirst : ∀ earlier step rest, steps = earlier ++ step :: rest →
      (opened.run earlier).Raises step →
        ∃ failure, (opened.run earlier).request.readPredicates = .error failure := by
    rintro (_ | ⟨_, _ | ⟨_, _ | ⟨_, others⟩⟩⟩) step rest parts raising <;>
      simp only [steps, List.cons_append, List.nil_append, List.cons.injEq] at parts
    · exact error_of_to_option refused
    · obtain ⟨_, rfl, _⟩ := parts
      cases raising.1
    · obtain ⟨rfl, rfl, _⟩ := parts
      obtain ⟨_, failure, failed⟩ := raising
      have returns : ((opened.run [.apply, .allowFilters ["age"]]).apply).2.toOption =
          some ⟨0, 0⟩ := by decide +kernel
      rw [failed] at returns
      cases returns
    · simp at parts
  obtain ⟨unchanged, chosen, sublist, built⟩ := filter_failures_leave_clauses_passed_once
    [("$filter", .text "age gt 18")] { filterable := ["name"] } { strictness := .strict } {} steps
    rfl filterFirst
  have clauses : opened.request.clauses = [⟨"age", .comparison .gt, some "18", 0⟩] := by
    decide +kernel
  have count : (pushed (opened.run steps).backend.log).length = 1 := by decide +kernel
  have whole : chosen = [⟨"age", .comparison .gt, some "18", 0⟩] := by
    rw [← clauses]
    exact sublist.eq_of_length (by rw [built.length_eq, count, clauses]; rfl)
  rw [whole] at built
  exact ⟨raises, unchanged [] .apply _ rfl raises, _, clauses, built⟩

/-- Ordering is refused after the predicate has been passed on; once the ordering has been opened
the predicate is passed on a second time. -/
theorem retried_clause_is_passed_twice :
    let opened := start [("$filter", .text "age gt 18"), ("$orderby", .text "name ASC")]
      { sortable := ["age"] } { strictness := .strict } {}
    let predicate : Predicate :=
      ⟨"entity.age > :val0", some ⟨"val0", .integer 18⟩, "entity.age", .comparison .gt⟩
    opened.Raises .apply ∧ opened.request.clauses.length = 1 ∧
      pushed opened.backend.log = [] ∧ pushed (opened.perform .apply).1.backend.log = [predicate] ∧
      pushed (opened.run [.apply, .allowSorts ["name"], .apply]).backend.log =
        [predicate, predicate] := by
  refine ⟨⟨rfl, error_of_to_option (by decide +kernel)⟩, ?_⟩
  decide +kernel

end Session

end QueryOptions
