import QueryOptions.Call
import QueryOptions.Expansion
import QueryOptions.Filter
import QueryOptions.PageLinks
import QueryOptions.SortKey

/-!
Requests: options that are applied to a backend under allow-lists and settings. Applying runs four
stages in a fixed order, filter, order, expansion and bounds, and remembers the page; a request that
has a page is never applied again. A stage that fails leaves the calls of the stages before it.
-/

namespace QueryOptions

/-- A request with what its stages have taken over so far. -/
structure Request where
  options : List (String × Value)
  access : Access := {}
  settings : Settings := {}
  predicates : List Predicate := []
  sorts : List SortKey := []
  expansions : List String := []
  page : Option Page := none
  deriving Repr, Inhabited

namespace Request

def option (request : Request) (key : String) : Value := Page.optionValue request.options key

def allowFilters (request : Request) (fields : AllowList) : Request :=
  { request with access := request.access.replace (some fields) none none }

def allowSorts (request : Request) (fields : AllowList) : Request :=
  { request with access := request.access.replace none (some fields) none }

def allowExpands (request : Request) (relations : AllowList) : Request :=
  { request with access := request.access.replace none none (some relations) }

def scope (request : Request) : Scope where
  access := request.access
  rootAlias := request.settings.rootAlias
  strictness := request.settings.strictness

/-- The predicates of the filter option. The whole filter is read and resolved before any of
them is taken over. -/
def readPredicates (request : Request) : Except Failure (List Predicate) :=
  match Filter.read .standard request.settings.strictness
      (request.option request.settings.filterKey) with
  | .error rejection => .error (.rejected rejection)
  | .ok clauses =>
      match request.scope.resolveAll clauses with
      | .error failure => .error failure.toFailure
      | .ok predicates => .ok predicates

def readSorts (request : Request) : Except Failure (List SortKey) :=
  (SortKey.read request.access request.settings.strictness
    (request.option request.settings.orderbyKey)).mapError .rejected

def readExpansions (request : Request) : Except Failure (List String) :=
  (Expansion.read request.access request.settings.strictness
    (request.option request.settings.expandKey)).mapError .rejected

/-- What a stage leaves: the request, the calls that were made, and how it ended. -/
structure Stage (α : Type) where
  request : Request
  calls : List Call
  result : Except Failure α

def Stage.andThen {α γ : Type} (stage : Stage α) (next : Request → α → Stage γ) : Stage γ :=
  match stage.result with
  | .error failure => ⟨stage.request, stage.calls, .error failure⟩
  | .ok value =>
      let rest := next stage.request value
      ⟨rest.request, stage.calls ++ rest.calls, rest.result⟩

/-- Predicates are added to those of earlier attempts. -/
def applyFilter (request : Request) : Stage Unit :=
  match request.readPredicates with
  | .error failure => ⟨request, [], .error failure⟩
  | .ok predicates =>
      ⟨{ request with predicates := request.predicates ++ predicates },
        predicates.map .addPredicate, .ok ()⟩

def applySorts (request : Request) : Stage Unit :=
  match request.readSorts with
  | .error failure => ⟨request, [], .error failure⟩
  | .ok sorts =>
      ⟨{ request with sorts := sorts },
        sorts.map fun sort =>
          .addOrdering (qualifyField sort.field request.settings.rootAlias) sort.direction,
        .ok ()⟩

def applyExpansions (request : Request) : Stage Unit :=
  match request.readExpansions with
  | .error failure => ⟨request, [], .error failure⟩
  | .ok expansions =>
      ⟨{ request with expansions := expansions }, expansions.map .addExpansion, .ok ()⟩

/-- Bounds of zero are not passed on. -/
def pageCalls (page : Page) : List Call :=
  (if 0 < page.limit then [.setLimit page.limit] else []) ++
    (if 0 < page.skip then [.setOffset page.skip] else [])

def applyPage (request : Request) : Stage Page :=
  let page := Page.ofSettings request.options request.settings
  ⟨{ request with page := some page }, pageCalls page, .ok page⟩

/-- Runs the stages once; later runs give the page of the first. -/
def apply (request : Request) : Stage Page :=
  match request.page with
  | some page => ⟨request, [], .ok page⟩
  | none =>
      request.applyFilter.andThen fun request _ =>
        request.applySorts.andThen fun request _ =>
          request.applyExpansions.andThen fun request _ => request.applyPage

end Request

structure Session (β : Type) where
  request : Request
  backend : β

namespace Session

variable {β : Type} [Backend β]

def apply (session : Session β) : Session β × Except Failure Page :=
  let stage := session.request.apply
  (⟨stage.request, Backend.receiveAll session.backend stage.calls⟩, stage.result)

def execute (session : Session β) : Session β × Except Failure Answer :=
  match session.apply with
  | (session, .error failure) => (session, .error failure)
  | (session, .ok _) =>
      let (backend, result) := Backend.execute session.backend
      ({ session with backend := backend }, result)

/-- Executes and describes the page that comes back. -/
def respond (session : Session β) : Session β × Except Failure Envelope :=
  match session.execute with
  | (session, .error failure) => (session, .error failure)
  | (session, .ok answer) =>
      match session.apply with
      | (session, .error failure) => (session, .error failure)
      | (session, .ok page) =>
          (session, .ok (Envelope.build answer.rows answer.total page.skip page.limit))

def links (session : Session β) (baseUrl : String) : Session β × Except Failure PageLinks :=
  match session.respond with
  | (session, .error failure) => (session, .error failure)
  | (session, .ok envelope) =>
      (session, (PageLinks.build session.request.settings session.request.options envelope
        baseUrl).mapError .unwritable)

end Session

end QueryOptions
