import QueryOptions.Proofs.Request.Stages

/-!
Sessions step by step. A step gives an allow-list or applies the request, and some of the steps that
apply it go on to execute the backend. Whatever else such a step computes, it leaves the session
that applying and executing leave.
-/

namespace QueryOptions

namespace Request

theorem apply_again {request : Request} {page : Page} (applied : request.page = some page) :
    request.apply = ⟨request, [], .ok page⟩ := by
  unfold apply
  rw [applied]

/-- A request that has been applied keeps its page. -/
theorem apply_keeps_page {request : Request} {page : Page}
    (returned : request.apply.result = .ok page) : request.apply.request.page = some page := by
  cases known : request.page with
  | some earlier =>
      rw [apply_again known] at returned ⊢
      cases returned
      exact known
  | none =>
      obtain ⟨predicates, sorts, expansions, readFilter, readSort, readExpand, rfl⟩ :=
        request.apply_returns known returned
      rw [request.apply_of_reads known readFilter readSort readExpand]

theorem apply_keeps_terms (request : Request) :
    request.apply.request.settings = request.settings ∧
      request.apply.request.options = request.options := by
  cases known : request.page with
  | some page =>
      rw [apply_again known]
      exact ⟨rfl, rfl⟩
  | none =>
      have rest : request.applyRest.request.settings = request.settings ∧
          request.applyRest.request.options = request.options := by
        rcases request.apply_rest_cases with
            ⟨_, _, stages⟩ | ⟨_, _, _, _, stages⟩ | ⟨_, _, _, _, stages⟩ <;>
          rw [stages] <;> exact ⟨rfl, rfl⟩
      rw [request.apply_fresh known]
      cases request.readPredicates with
      | error failure => exact ⟨rfl, rfl⟩
      | ok predicates => exact rest

end Request

namespace Session

inductive Step where
  | allowFilters (fields : AllowList)
  | allowSorts (fields : AllowList)
  | allowExpands (relations : AllowList)
  | apply
  | execute
  | respond
  | links (baseUrl : String)
  deriving DecidableEq, Repr

inductive Reply where
  | allowed
  | page (result : Except Failure Page)
  | answer (result : Except Failure Answer)
  | envelope (result : Except Failure Envelope)
  | links (result : Except Failure PageLinks)

namespace Step

def applies : Step → Bool
  | .allowFilters _ | .allowSorts _ | .allowExpands _ => false
  | .apply | .execute | .respond | .links _ => true

def executes : Step → Bool
  | .execute | .respond | .links _ => true
  | _ => false

def allow (access : Access) : Step → Access
  | .allowFilters fields => access.replace (some fields) none none
  | .allowSorts fields => access.replace none (some fields) none
  | .allowExpands relations => access.replace none none (some relations)
  | _ => access

theorem applies_iff {step : Step} :
    step.applies = true ↔ step = .apply ∨ step.executes = true := by
  cases step <;> simp [applies, executes]

theorem executes_of_gives {step : Step} (gives : step.applies = false) :
    step.executes = false := by
  cases executes : step.executes with
  | false => rfl
  | true =>
      rw [applies_iff.mpr (.inr executes)] at gives
      cases gives

end Step

variable {β : Type} [Backend β]

def perform (session : Session β) : Step → Session β × Reply
  | .allowFilters fields =>
      ({ session with request := session.request.allowFilters fields }, .allowed)
  | .allowSorts fields => ({ session with request := session.request.allowSorts fields }, .allowed)
  | .allowExpands relations =>
      ({ session with request := session.request.allowExpands relations }, .allowed)
  | .apply => (session.apply.1, .page session.apply.2)
  | .execute => (session.execute.1, .answer session.execute.2)
  | .respond => (session.respond.1, .envelope session.respond.2)
  | .links baseUrl => ((session.links baseUrl).1, .links (session.links baseUrl).2)

def run (session : Session β) (steps : List Step) : Session β :=
  steps.foldl (fun session step => (session.perform step).1) session

@[simp]
theorem run_nil (session : Session β) : session.run [] = session := rfl

@[simp]
theorem run_cons (session : Session β) (step : Step) (steps : List Step) :
    session.run (step :: steps) = (session.perform step).1.run steps := rfl

theorem run_append (session : Session β) (earlier later : List Step) :
    session.run (earlier ++ later) = (session.run earlier).run later :=
  List.foldl_append

def withAccess (session : Session β) (access : Access) : Session β :=
  { session with request := { session.request with access := access } }

/-- The session after its backend was executed, successfully or not. -/
def executed (session : Session β) : Session β :=
  { session with backend := (Backend.execute session.backend).1 }

theorem perform_allow (session : Session β) {step : Step} (gives : step.applies = false) :
    (session.perform step).1 = session.withAccess (step.allow session.request.access) := by
  cases step with
  | allowFilters fields => rfl
  | allowSorts fields => rfl
  | allowExpands relations => rfl
  | _ => cases gives

theorem apply_again {session : Session β} {page : Page}
    (applied : session.request.page = some page) : session.apply = (session, .ok page) := by
  unfold apply
  rw [Request.apply_again applied]
  rfl

theorem apply_keeps_page {session : Session β} {page : Page}
    (returned : session.apply.2 = .ok page) : session.apply.1.request.page = some page :=
  Request.apply_keeps_page returned

theorem execute_of_error {session : Session β} {failure : Failure}
    (failed : session.apply.2 = .error failure) :
    session.execute = (session.apply.1, .error failure) := by
  unfold execute
  rcases applied : session.apply with ⟨after, result⟩
  rw [applied] at failed
  cases failed
  rfl

theorem execute_of_ok {session : Session β} {page : Page}
    (returned : session.apply.2 = .ok page) :
    session.execute = (session.apply.1.executed, (Backend.execute session.apply.1.backend).2) := by
  unfold execute
  rcases applied : session.apply with ⟨after, result⟩
  rw [applied] at returned
  cases returned
  rfl

theorem respond_of_error {session : Session β} {failure : Failure}
    (failed : session.apply.2 = .error failure) : session.respond.2 = .error failure := by
  unfold respond
  rw [execute_of_error failed]

theorem respond_of_ok {session : Session β} {page : Page}
    (returned : session.apply.2 = .ok page) :
    session.respond.2 = (Backend.execute session.apply.1.backend).2.map fun answer =>
      Envelope.build answer.rows answer.total page.skip page.limit := by
  have applied : session.apply.1.executed.request.page = some page := apply_keeps_page returned
  unfold respond
  rw [execute_of_ok returned]
  cases (Backend.execute session.apply.1.backend).2 with
  | error failure => rfl
  | ok answer =>
      dsimp only
      rw [apply_again applied]
      rfl

theorem envelope_of_respond {session : Session β} {envelope : Envelope}
    (responded : session.respond.2 = .ok envelope) :
    ∃ page answer, session.apply.2 = .ok page ∧ session.execute.2 = .ok answer ∧
      envelope = Envelope.build answer.rows answer.total page.skip page.limit := by
  cases applied : session.apply.2 with
  | error failure =>
      rw [respond_of_error applied] at responded
      cases responded
  | ok page =>
      rw [respond_of_ok applied] at responded
      cases executed : (Backend.execute session.apply.1.backend).2 with
      | error failure =>
          rw [executed] at responded
          cases responded
      | ok answer =>
          rw [executed] at responded
          refine ⟨page, answer, rfl, ?_, (Except.ok.inj responded).symm⟩
          rw [execute_of_ok applied]
          exact executed

/-- Responding applies the request a second time, which changes nothing. -/
theorem respond_leaves (session : Session β) : session.respond.1 = session.execute.1 := by
  cases result : session.apply.2 with
  | error failure =>
      unfold respond
      rw [execute_of_error result]
  | ok page =>
      have applied : session.apply.1.executed.request.page = some page := apply_keeps_page result
      unfold respond
      rw [execute_of_ok result]
      cases (Backend.execute session.apply.1.backend).2 with
      | error failure => rfl
      | ok answer =>
          dsimp only
          rw [apply_again applied]

theorem links_leaves (session : Session β) (baseUrl : String) :
    (session.links baseUrl).1 = session.execute.1 := by
  rw [← respond_leaves]
  unfold links
  rcases session.respond with ⟨after, failure | envelope⟩ <;> rfl

theorem links_of_respond (session : Session β) (baseUrl : String) :
    (session.links baseUrl).2 = session.respond.2.bind fun envelope =>
      (PageLinks.build session.request.settings session.request.options envelope
        baseUrl).mapError .unwritable := by
  have asked : session.respond.1.request.settings = session.request.settings ∧
      session.respond.1.request.options = session.request.options := by
    rw [respond_leaves]
    cases result : session.apply.2 with
    | error failure =>
        rw [execute_of_error result]
        exact session.request.apply_keeps_terms
    | ok page =>
        rw [execute_of_ok result]
        exact session.request.apply_keeps_terms
  unfold links
  rcases responded : session.respond with ⟨after, failure | envelope⟩
  · rfl
  · rw [responded] at asked
    obtain ⟨settings, options⟩ := asked
    dsimp only at settings options ⊢
    rw [settings, options]
    rfl

theorem perform_executes (session : Session β) {step : Step} (executes : step.executes = true) :
    (session.perform step).1 = session.execute.1 := by
  cases step with
  | execute => rfl
  | respond => exact session.respond_leaves
  | links baseUrl => exact session.links_leaves baseUrl
  | _ => cases executes

theorem perform_of_error (session : Session β) {step : Step} (applies : step.applies = true)
    {failure : Failure} (failed : session.apply.2 = .error failure) :
    (session.perform step).1 = session.apply.1 := by
  rcases Step.applies_iff.mp applies with rfl | executes
  · rfl
  · rw [session.perform_executes executes, execute_of_error failed]

theorem perform_of_ok (session : Session β) {step : Step} (applies : step.applies = true)
    {page : Page} (returned : session.apply.2 = .ok page) :
    (session.perform step).1 =
      if step.executes then session.apply.1.executed else session.apply.1 := by
  rcases Step.applies_iff.mp applies with rfl | executes
  · rfl
  · rw [session.perform_executes executes, execute_of_ok returned, if_pos executes]

end Session

end QueryOptions
