import QueryOptions.Proofs.Links.Pages
import QueryOptions.Proofs.Memory.Responses
import QueryOptions.Proofs.Sql.Counting

/-!
The ceiling of the page size. Under a positive ceiling every page is limited, whatever is given for
the bounds, so a backend is told one limit and answers no more rows than that. The links of a
response ask for its limit as a bound, and a bound that the ceiling has settled stays as it is.
-/

namespace QueryOptions

def Call.limit? : Call → Option Int
  | .setLimit limit => some limit
  | _ => none

namespace Request

/-- A request that has not been applied yet. -/
structure Asks (request : Request) (access : Access) (settings : Settings)
    (options : List (String × Value)) : Prop where
  options : request.options = options
  access : request.access = access
  settings : request.settings = settings
  fresh : request.page = none

theorem limits_of_calls (request : Request) (predicates : List Predicate) (sorts : List SortKey)
    (expansions : List String) {page : Page} (limited : 0 < page.limit) :
    (predicates.map Call.addPredicate ++
      request.restCalls sorts expansions page).filterMap Call.limit? = [page.limit] := by
  have noneOfFilter : (predicates.map Call.addPredicate).filterMap Call.limit? = [] := by
    rw [List.filterMap_map]
    exact List.filterMap_none predicates
  have noneOfOrder : (sorts.map fun sort => Call.addOrdering
      (qualifyField sort.field request.settings.rootAlias) sort.direction).filterMap
        Call.limit? = [] := by
    rw [List.filterMap_map]
    exact List.filterMap_none sorts
  have noneOfExpansion : (expansions.map Call.addExpansion).filterMap Call.limit? = [] := by
    rw [List.filterMap_map]
    exact List.filterMap_none expansions
  have oneOfBounds : (pageCalls page).filterMap Call.limit? = [page.limit] := by
    unfold pageCalls
    rw [if_pos limited]
    split <;> rfl
  unfold restCalls
  rw [List.filterMap_append, List.filterMap_append, List.filterMap_append, noneOfFilter,
    noneOfOrder, noneOfExpansion, oneOfBounds]
  rfl

end Request

namespace Sql.Plan

variable {plan : Plan} {limit : Int}

/-- A limit bounds the roots that are loaded, not only the joined rows: either the joined rows are
cut, or the keys that the roots on the page have. -/
theorem loaded_length_le (nonneg : 0 ≤ limit) (limited : plan.selection.limit = some limit)
    (database : Database) : ((plan.loaded database).length : Int) ≤ limit := by
  have bounded {α : Type} (items : List α) : ((plan.bounded items).length : Int) ≤ limit := by
    unfold Plan.bounded
    rw [limited]
    exact cut_length_le nonneg _ items
  have firsts := (plan.roots_perm (plan.pageRows database)).length_eq
  unfold loaded
  rw [List.length_map, firsts]
  cases overKeys : plan.selection.pagesKeys with
  | false =>
      have rows := (first_by_key_sublist plan.key [] (plan.pageRows database)).length_le
      have page : plan.pageRows database = plan.bounded (plan.sorted (plan.filtered database)) := by
        rw [pageRows, overKeys, if_neg Bool.false_ne_true]
      rw [page] at rows ⊢
      exact Int.le_trans (Int.ofNat_le.mpr rows) (bounded _)
  | true =>
      -- The roots have keys of their own, and all of these are among the keys that were cut.
      have known : (firstByKey plan.key [] (plan.pageRows database)).map plan.key ⊆
          plan.pageKeys database := by
        intro found member
        obtain ⟨joined, onPage, rfl⟩ := List.mem_map.mp (mem_keys_of_firsts.mp member).1
        rw [pageRows, overKeys, if_pos rfl] at onPage
        have kept := (List.mem_filter.mp (List.mem_mergeSort.mp onPage)).2
        exact List.contains_iff_mem.mp kept
      have keys := (List.subperm_of_subset
        (keys_of_firsts_nodup plan.key [] (plan.pageRows database)) known).length_le
      rw [List.length_map, pageKeys, List.length_map] at keys
      exact Int.le_trans (Int.ofNat_le.mpr keys) (bounded _)

end Sql.Plan

namespace PageLinks

theorem link_of_build {settings : Settings} {options : List (String × Value)} {baseUrl : String}
    {envelope : Envelope} (positive : 0 < envelope.perPage) (started : 1 ≤ envelope.currentPage)
    {links : PageLinks} (built : build settings options envelope baseUrl = .ok links)
    {target : String} (named : some target ∈ [links.first, links.prev, links.next, links.last]) :
    ∃ page, 1 ≤ page ∧ target = writtenLink settings options baseUrl envelope.perPage page := by
  obtain ⟨_, rfl⟩ := (build_eq_ok_iff positive).mp built
  obtain ⟨page, linked, rfl⟩ := link_of_written named
  exact ⟨page, (linked_page_within started linked).1, rfl⟩

end PageLinks

namespace QueryString

theorem limit_of_decoded {settings : Settings} (distinct : settings.keys.Nodup)
    {options : List (String × Value)} {skip : Int} (skipNonneg : 0 ≤ skip)
    (limited : 0 < (Page.ofSettings options settings).limit) :
    (Page.ofSettings (decoded settings options skip (Page.ofSettings options settings).limit)
      settings).limit = (Page.ofSettings options settings).limit := by
  rw [page_of_decoded options distinct skipNonneg (Int.le_of_lt limited)]
  exact Page.clamp_settled settings.maxTop (Page.bound_nonneg _)
    (Page.bound_small (Page.optionValue options settings.topKey)) IntegerTooLong.bound_positive
    (if_pos limited).symm limited

end QueryString

namespace Session

variable {β : Type} [Backend β] {session : Session β} {access : Access} {settings : Settings}
  {options : List (String × Value)}

theorem apply_limits (asks : session.request.Asks access settings options)
    (limited : 0 < (Page.ofSettings options settings).limit) {page : Page}
    (returned : session.apply.2 = .ok page) :
    page = Page.ofSettings options settings ∧
      session.request.apply.calls.filterMap Call.limit? = [page.limit] := by
  obtain ⟨predicates, sorts, expansions, readFilter, readSort, readExpand, rfl⟩ :=
    session.request.apply_returns asks.fresh returned
  rw [session.request.apply_of_reads asks.fresh readFilter readSort readExpand, asks.options,
    asks.settings]
  exact ⟨rfl, session.request.limits_of_calls predicates sorts expansions limited⟩

theorem apply_of_same_terms {γ : Type} [Backend γ] {again : Session γ}
    (asks : session.request.Asks access settings options) {page : Page}
    (returned : session.apply.2 = .ok page) {others : List (String × Value)}
    (asksAgain : again.request.Asks access settings others)
    (held : ∀ key ∈ settings.termKeys,
      (Page.optionValue others key).heldText = (Page.optionValue options key).heldText) :
    again.apply.2 = .ok (Page.ofSettings others settings) := by
  obtain ⟨predicates, sorts, expansions, readFilter, readSort, readExpand, rfl⟩ :=
    session.request.apply_returns asks.fresh returned
  obtain ⟨sameFilter, sameSort, sameExpand⟩ := again.request.reads_of_held_texts session.request
    (asksAgain.access.trans asks.access.symm) (asksAgain.settings.trans asks.settings.symm) (by
      rw [asksAgain.settings]
      unfold Request.option
      rw [asksAgain.options, asks.options]
      exact held)
  have applied := again.request.apply_of_reads asksAgain.fresh (sameFilter.trans readFilter)
    (sameSort.trans readSort) (sameExpand.trans readExpand)
  change again.request.apply.result = _
  rw [applied, asksAgain.options, asksAgain.settings]

theorem links_of_limited (asks : session.request.Asks access settings options)
    (limited : 0 < (Page.ofSettings options settings).limit) {baseUrl : String} {links : PageLinks}
    (linked : (session.links baseUrl).2 = .ok links) :
    ∃ envelope : Envelope, envelope.perPage = (Page.ofSettings options settings).limit ∧
      1 ≤ envelope.currentPage ∧ PageLinks.build settings options envelope baseUrl = .ok links := by
  rw [links_of_respond, asks.settings, asks.options] at linked
  cases responded : session.respond.2 with
  | error failure =>
      rw [responded] at linked
      cases linked
  | ok envelope =>
      rw [responded] at linked
      obtain ⟨page, answer, applied, _, rfl⟩ := envelope_of_respond responded
      obtain ⟨rfl, _⟩ := apply_limits asks limited applied
      refine ⟨_, if_pos limited, ?_, ok_of_map_error linked⟩
      have skipNonneg := (Page.of_settings_nonneg options settings).1
      have turned : 0 ≤ Int.fdiv (Page.ofSettings options settings).skip
          (Page.ofSettings options settings).limit :=
        Int.fdiv_nonneg skipNonneg (Int.le_of_lt limited)
      unfold Envelope.build
      dsimp only
      rw [if_pos limited]
      omega

/-- Every link of a limited page leads to options that ask for the same limit. They hold the terms
of the request, as long as these are texts or do not count as given. -/
theorem links_keep_limit (distinct : settings.keys.Nodup)
    (asks : session.request.Asks access settings options)
    (limited : 0 < (Page.ofSettings options settings).limit) {baseUrl : String} {links : PageLinks}
    (linked : (session.links baseUrl).2 = .ok links) :
    (∃ first last, links.first = some first ∧ links.last = some last) ∧
    ∀ link, some link ∈ [links.first, links.prev, links.next, links.last] →
      ∃ target, PageLinks.target? baseUrl link = some target ∧
        (Page.ofSettings target settings).limit = (Page.ofSettings options settings).limit ∧
        ((∀ key ∈ settings.termKeys, (Page.optionValue options key).isTruthy = true →
            ∃ text, Page.optionValue options key = .text text) →
          ∀ key ∈ settings.termKeys, (Page.optionValue target key).heldText =
            (Page.optionValue options key).heldText) := by
  obtain ⟨envelope, size, started, built⟩ := links_of_limited asks limited linked
  have positive : 0 < envelope.perPage := size ▸ limited
  constructor
  · obtain ⟨_, rfl⟩ := (PageLinks.build_eq_ok_iff positive).mp built
    exact ⟨_, _, rfl, rfl⟩
  · intro link named
    obtain ⟨page, counted, rfl⟩ := PageLinks.link_of_build positive started built named
    have skipNonneg : 0 ≤ (page - 1) * envelope.perPage :=
      Int.mul_nonneg (by omega) (Int.le_of_lt positive)
    refine ⟨_, PageLinks.target_of_link distinct options baseUrl _ page, ?_, ?_⟩
    · rw [size] at skipNonneg ⊢
      exact QueryString.limit_of_decoded distinct skipNonneg limited
    · intro textual key term
      exact QueryString.decoded_held_text options distinct _ _ term (textual key term)

end Session

namespace Memory.Collection

theorem executed_length_le [Attributes] {rows : List Value} {rootAlias : String} {access : Access}
    {settings : Settings} {options : List (String × Value)}
    (limited : 0 < (Page.ofSettings options settings).limit) {answer : Answer}
    (returned : (ask rows rootAlias access settings options).execute.2 = .ok answer) :
    (answer.rows.length : Int) ≤ (Page.ofSettings options settings).limit := by
  obtain ⟨ordered, gives⟩ := gives_of_execution returned
  cases returned.symm.trans gives.executes
  exact Page.slice_length_le limited ordered

end Memory.Collection

namespace Sql.Store

theorem executed_length_le {database : Database} {entity : Entity} {rootAlias : String}
    {access : Access} {settings : Settings} {options : List (String × Value)}
    (limited : 0 < (Page.ofSettings options settings).limit) {answer : Answer}
    (returned : (ask database entity rootAlias access settings options).execute.2 = .ok answer) :
    (answer.rows.length : Int) ≤ (Page.ofSettings options settings).limit := by
  obtain ⟨_, _, _, plan, _, _, _, planned, rfl⟩ := ask_returned returned
  obtain ⟨_, _, _, _, ofSelection⟩ := Selection.plan_eq_ok_iff.mp planned
  have bounded : plan.selection.limit = some (Page.ofSettings options settings).limit := by
    rw [ofSelection]
    exact if_pos limited
  rw [Plan.answer_eq, List.length_map]
  exact Plan.loaded_length_le (Int.le_of_lt limited) bounded database

end Sql.Store

namespace Session

/-- Whatever is given for the bounds, a positive ceiling limits the page. The limit is told to the
backend once, no answer holds more rows than it, not even with a collection, and it is the limit of
every page that a link of the response leads to. -/
theorem ceiling_bounds_every_answer [Memory.Attributes] {settings : Settings} {ceiling : Int}
    (capped : settings.maxTop = some ceiling) (positive : 0 < ceiling)
    (distinct : settings.keys.Nodup) (access : Access) (options : List (String × Value)) :
    let limit := (Page.ofSettings options settings).limit
    1 ≤ limit ∧ limit ≤ ceiling ∧
    (∀ {β : Type} [Backend β] (session : Session β),
      session.request.Asks access settings options →
      (∀ page, session.apply.2 = .ok page →
        page.limit = limit ∧
        session.request.apply.calls.filterMap Call.limit? = [limit] ∧
        session.execute.1.backend = (Backend.execute
          (Backend.receiveAll session.backend session.request.apply.calls)).1) ∧
      (∀ baseUrl links, (session.links baseUrl).2 = .ok links →
        (∃ first last, links.first = some first ∧ links.last = some last) ∧
        ∀ link, some link ∈ [links.first, links.prev, links.next, links.last] →
          ∃ target, PageLinks.target? baseUrl link = some target ∧
            ∀ {γ : Type} [Backend γ] (again : Session γ),
              again.request.Asks access settings target →
              (∀ page, again.apply.2 = .ok page → page.limit = limit) ∧
              ((∀ key ∈ settings.termKeys, (Page.optionValue options key).isTruthy = true →
                  ∃ text, Page.optionValue options key = .text text) →
                ∃ page, again.apply.2 = .ok page ∧ page.limit = limit))) ∧
    (∀ rows rootAlias answer,
      (Memory.Collection.ask rows rootAlias access settings options).execute.2 = .ok answer →
      (answer.rows.length : Int) ≤ limit) ∧
    (∀ database entity rootAlias answer,
      (Sql.Store.ask database entity rootAlias access settings options).execute.2 = .ok answer →
      (answer.rows.length : Int) ≤ limit) := by
  intro limit
  obtain ⟨least, most⟩ := Page.limit_within_ceiling options capped positive
  have limited : 0 < (Page.ofSettings options settings).limit := by omega
  refine ⟨least, most, ?_, fun _ _ _ => Memory.Collection.executed_length_le limited,
    fun _ _ _ _ => Sql.Store.executed_length_le limited⟩
  intro β backend session asks
  constructor
  · intro page returned
    obtain ⟨rfl, once⟩ := apply_limits asks limited returned
    refine ⟨rfl, once, ?_⟩
    rw [execute_of_ok returned]
    rfl
  · intro baseUrl links linked
    obtain ⟨ends, targets⟩ := links_keep_limit distinct asks limited linked
    refine ⟨ends, fun link named => ?_⟩
    obtain ⟨target, leads, sameLimit, sameTerms⟩ := targets link named
    refine ⟨target, leads, fun again asksAgain => ⟨?_, ?_⟩⟩
    · intro page returned
      have againLimited : 0 < (Page.ofSettings target settings).limit := sameLimit ▸ limited
      obtain ⟨rfl, _⟩ := apply_limits asksAgain againLimited returned
      exact sameLimit
    · intro textual
      obtain ⟨page, applied⟩ : ∃ page, session.apply.2 = .ok page := by
        cases applied : session.apply.2 with
        | ok page => exact ⟨page, rfl⟩
        | error failure =>
            rw [links_of_respond, respond_of_error applied] at linked
            cases linked
      exact ⟨_, apply_of_same_terms asks applied asksAgain (sameTerms textual), sameLimit⟩

attribute [local instance] Memory.Attributes.bare in
/-- Six users with their posts, under a ceiling of two and a bound that is no number. -/
theorem garbled_bound_is_two_users :
    let settings : Settings := { maxTop := some 2 }
    let options := [("$expand", Value.text "posts"), ("$orderby", .text "posts.title DESC"),
      ("$top", .text "everything")]
    let session := Sql.Store.ask Sql.Sample.database .user "entity" {} settings options
    ∃ answer links first target again, session.execute.2 = .ok answer ∧ answer.total = 6 ∧
      (answer.rows.length : Int) ≤ 2 ∧
      session.request.apply.calls.filterMap Call.limit? = [2] ∧
      (session.links "/users").2 = .ok links ∧ links.first = some first ∧
      PageLinks.target? "/users" first = some target ∧
      (Sql.Store.ask Sql.Sample.database .user "entity" {} settings target).apply.2 = .ok again ∧
      again.limit = 2 := by
  intro settings options session
  have counted : session.execute.2.toOption.map Answer.total = some 6 := by decide +kernel
  obtain ⟨answer, found, six⟩ := Option.map_eq_some_iff.mp counted
  have returned : session.execute.2 = .ok answer := ok_of_to_option found
  have responds : (session.links "/users").2.toOption.isSome = true := by decide +kernel
  obtain ⟨links, linked⟩ := Option.isSome_iff_exists.mp responds
  have page : session.apply.2 = .ok ⟨0, 2⟩ := ok_of_to_option (by decide +kernel)
  have limit : (Page.ofSettings options settings).limit = 2 := by decide +kernel
  have capped : settings.maxTop = some 2 := rfl
  have distinct : settings.keys.Nodup := by decide
  have textual : ∀ key ∈ settings.termKeys, (Page.optionValue options key).isTruthy = true →
      ∃ text, Page.optionValue options key = .text text := by
    intro key term given
    simp only [settings, Settings.termKeys, List.mem_cons, List.not_mem_nil, or_false] at term
    rcases term with rfl | rfl | rfl
    · cases given
    · exact ⟨_, rfl⟩
    · exact ⟨_, rfl⟩
  obtain ⟨_, _, asking, _, stored⟩ :=
    ceiling_bounds_every_answer capped (by decide) distinct {} options
  obtain ⟨applied, linking⟩ := asking session ⟨rfl, rfl, rfl, rfl⟩
  obtain ⟨⟨first, _, opens, _⟩, leads⟩ := linking "/users" links (ok_of_to_option linked)
  obtain ⟨target, asked, again⟩ := leads first (by rw [opens]; exact List.mem_cons_self)
  obtain ⟨_, returns⟩ := again
    (Sql.Store.ask Sql.Sample.database .user "entity" {} settings target) ⟨rfl, rfl, rfl, rfl⟩
  obtain ⟨next, appliedAgain, sameLimit⟩ := returns textual
  refine ⟨answer, links, first, target, next, returned, six, ?_, ?_, ok_of_to_option linked, opens,
    asked, appliedAgain, sameLimit.trans limit⟩
  · rw [← limit]
    exact stored _ _ _ answer returned
  · rw [← limit]
    exact (applied _ page).2.1

end Session

end QueryOptions
