import QueryOptions.Proofs.Request.Bounds
import QueryOptions.Proofs.Request.Reading
import QueryOptions.Proofs.Sql.Received
import QueryOptions.Proofs.Sql.Roots
import QueryOptions.Sql.Sample

/-!
Paging is slicing. Bounds change neither the plan of a selection nor the roots that it keeps, so a
bounded request answers the slice of what the same request answers without bounds, whether the page
is cut over joined rows or over keys.
-/

namespace QueryOptions

namespace Page

theorem cut_eq_slice {α : Type} {page : Page} (skipNonneg : 0 ≤ page.skip)
    (limitNonneg : 0 ≤ page.limit) (items : List α) :
    Sql.cut (if 0 < page.limit then some page.limit else none)
        (if 0 < page.skip then some page.skip else none) items = page.slice items := by
  have skipped : ((if 0 < page.skip then some page.skip else none).getD 0).toNat =
      page.skip.toNat := by
    split
    · rfl
    · have none : page.skip = 0 := by omega
      rw [none]
      rfl
  unfold Sql.cut slice
  rw [skipped]
  by_cases limited : 0 < page.limit
  · have notNegative : ¬page.limit < 0 := by omega
    have notZero : page.limit ≠ 0 := by omega
    simp only [limited, if_true, notNegative, notZero, if_false]
  · have zero : page.limit = 0 := by omega
    simp [zero]

end Page

namespace Sql

namespace Selection

def unbounded (selection : Selection) : Selection :=
  { selection with limit := none, offset := none }

theorem unbounded_requested (entity : Entity) (rootAlias qualifier : String)
    (predicates : List Predicate) (sorts : List SortKey) (expansions : List String) (page : Page) :
    (requested entity rootAlias qualifier predicates sorts expansions page).unbounded =
      requested entity rootAlias qualifier predicates sorts expansions ⟨0, 0⟩ := rfl

end Selection

namespace Plan

def unbounded (plan : Plan) : Plan := { plan with selection := plan.selection.unbounded }

variable {plan : Plan} {database : Database}

theorem unbounded_sorts_roots (sorts : plan.SortsRoots) : plan.unbounded.SortsRoots where
  ofRoots := sorts.ofRoots
  wholeKey := sorts.wholeKey

theorem loaded_is_page (sound : database.Sound plan.selection.entity) (sorts : plan.SortsRoots)
    (joins : ∀ relation ∈ plan.selection.joins, relation ∈ plan.selection.entity.relations) :
    plan.loaded database = plan.bounded (plan.unbounded.loaded database) := by
  have wholeSound : database.Sound plan.unbounded.selection.entity := sound
  rw [loaded_eq sound sorts joins, loaded_eq wholeSound (unbounded_sorts_roots sorts) joins]
  exact (cut_map _ _ _ _).symm

theorem total_is_whole (sound : database.Sound plan.selection.entity) :
    plan.total database = plan.unbounded.total database := by
  have wholeSound : database.Sound plan.unbounded.selection.entity := sound
  rw [total_eq sound, total_eq wholeSound]
  rfl

end Plan

namespace Selection

theorem plan_unbounded {selection : Selection} {plan : Plan}
    (planned : selection.plan = .ok plan) : selection.unbounded.plan = .ok plan.unbounded := by
  obtain ⟨ambiguous, conditions, orderings, fits, same⟩ := plan_eq_ok_iff.mp planned
  refine plan_eq_ok_iff.mpr ⟨ambiguous, conditions, orderings, ?_, by rw [Plan.unbounded, same]⟩
  unfold oversized? at fits ⊢
  rw [List.find?_append] at fits ⊢
  have fitting := (Option.or_eq_none_iff.mp fits).1
  exact Option.or_eq_none_iff.mpr ⟨fitting, rfl⟩

end Selection

namespace Store

theorem execute_eq_ok_iff {session : Session Store} {answer : Answer} :
    session.execute.2 = .ok answer ↔
      (∃ page, session.apply.2 = .ok page) ∧
        ∃ plan, session.apply.1.backend.selection.plan = .ok plan ∧
          answer = plan.answer session.apply.1.backend.database := by
  unfold Session.execute
  rcases applied : session.apply with ⟨after, failure | page⟩
  · simp
  · change after.backend.selection.execute after.backend.database = _ ↔ _
    unfold Selection.execute
    cases planned : after.backend.selection.plan with
    | error failure => simp
    | ok plan => simp [eq_comm]

def ask (database : Database) (entity : Entity) (rootAlias : String) (access : Access)
    (settings : Settings) (options : List (String × Value)) : Session Store where
  request := { options := options, access := access, settings := settings }
  backend := ⟨database, { entity := entity, rootAlias := rootAlias }⟩

variable {database : Database} {entity : Entity} {rootAlias : String} {access : Access}
  {settings : Settings}

theorem ask_applied {options : List (String × Value)} {predicates : List Predicate}
    {sorts : List SortKey} {expansions : List String}
    (readFilter : (ask database entity rootAlias access settings options).request.readPredicates =
      .ok predicates)
    (readSort : (ask database entity rootAlias access settings options).request.readSorts =
      .ok sorts)
    (readExpand : (ask database entity rootAlias access settings options).request.readExpansions =
      .ok expansions) :
    (ask database entity rootAlias access settings options).apply.2 =
        .ok (Page.ofSettings options settings) ∧
      (ask database entity rootAlias access settings options).apply.1.backend =
        ⟨database, Selection.requested entity rootAlias settings.rootAlias predicates sorts
          expansions (Page.ofSettings options settings)⟩ := by
  have applied := Request.apply_of_reads
    (ask database entity rootAlias access settings options).request rfl readFilter readSort
    readExpand
  constructor
  · change (ask database entity rootAlias access settings options).request.apply.result = _
    rw [applied]
    rfl
  · change Backend.receiveAll (ask database entity rootAlias access settings options).backend
      (ask database entity rootAlias access settings options).request.apply.calls = _
    rw [applied, receive_all_eq]
    exact congrArg (Store.mk database)
      (Selection.receive_request entity rootAlias _ predicates sorts expansions _)

section SameOption

variable {options others : List (String × Value)}

theorem same_predicates
    (filter : Page.optionValue others settings.filterKey =
      Page.optionValue options settings.filterKey) :
    (ask database entity rootAlias access settings others).request.readPredicates =
      (ask database entity rootAlias access settings options).request.readPredicates :=
  Request.read_predicates_congr rfl rfl filter

theorem same_sorts
    (orderby : Page.optionValue others settings.orderbyKey =
      Page.optionValue options settings.orderbyKey) :
    (ask database entity rootAlias access settings others).request.readSorts =
      (ask database entity rootAlias access settings options).request.readSorts :=
  Request.read_sorts_congr rfl rfl orderby

theorem same_expansions
    (expand : Page.optionValue others settings.expandKey =
      Page.optionValue options settings.expandKey) :
    (ask database entity rootAlias access settings others).request.readExpansions =
      (ask database entity rootAlias access settings options).request.readExpansions :=
  Request.read_expansions_congr rfl rfl expand

end SameOption

theorem ask_executed {options : List (String × Value)} {predicates : List Predicate}
    {sorts : List SortKey} {expansions : List String} {plan : Plan}
    (readFilter : (ask database entity rootAlias access settings options).request.readPredicates =
      .ok predicates)
    (readSort : (ask database entity rootAlias access settings options).request.readSorts =
      .ok sorts)
    (readExpand : (ask database entity rootAlias access settings options).request.readExpansions =
      .ok expansions)
    (planned : (Selection.requested entity rootAlias settings.rootAlias predicates sorts
      expansions (Page.ofSettings options settings)).plan = .ok plan) :
    (ask database entity rootAlias access settings options).apply.1.backend.selection.plan =
        .ok plan ∧
      (ask database entity rootAlias access settings options).execute.2 =
        .ok (plan.answer database) := by
  obtain ⟨applied, reached⟩ := ask_applied readFilter readSort readExpand
  have reachedPlan :
      (ask database entity rootAlias access settings options).apply.1.backend.selection.plan =
        .ok plan := by
    rw [reached]
    exact planned
  refine ⟨reachedPlan, execute_eq_ok_iff.mpr ⟨⟨_, applied⟩, plan, reachedPlan, ?_⟩⟩
  rw [reached]

theorem ask_returned {options : List (String × Value)} {answer : Answer}
    (returned : (ask database entity rootAlias access settings options).execute.2 = .ok answer) :
    ∃ predicates sorts expansions plan,
      (ask database entity rootAlias access settings options).request.readPredicates =
        .ok predicates ∧
      (ask database entity rootAlias access settings options).request.readSorts = .ok sorts ∧
      (ask database entity rootAlias access settings options).request.readExpansions =
        .ok expansions ∧
      (Selection.requested entity rootAlias settings.rootAlias predicates sorts expansions
        (Page.ofSettings options settings)).plan = .ok plan ∧
      answer = plan.answer database := by
  obtain ⟨⟨_, applied⟩, plan, planned, answered⟩ := execute_eq_ok_iff.mp returned
  obtain ⟨predicates, sorts, expansions, readFilter, readSort, readExpand, _⟩ :=
    Request.apply_returns _ rfl applied
  obtain ⟨_, reached⟩ := ask_applied readFilter readSort readExpand
  rw [reached] at planned answered
  exact ⟨predicates, sorts, expansions, plan, readFilter, readSort, readExpand, planned, answered⟩

/-- A bounded request answers the slice of what the same request answers without bounds: the same
roots in the same order with the same related rows, and the same total. The roots stand in a strict
order, so the slice does not depend on how ties are broken. -/
theorem page_is_slice_of_whole (options plain : List (String × Value))
    (sound : database.Sound entity)
    (unlimited : settings.maxTop = none)
    (sameElsewhere : ∀ key ∈ [settings.filterKey, settings.orderbyKey, settings.expandKey],
      Page.optionValue plain key = Page.optionValue options key)
    (without : ∀ key ∈ [settings.topKey, settings.skipKey], Page.optionValue plain key = .null)
    {answer : Answer}
    (returned : (ask database entity rootAlias access settings options).execute.2 = .ok answer)
    (sorts : ∀ plan,
      (ask database entity rootAlias access settings options).apply.1.backend.selection.plan =
        .ok plan → plan.SortsRoots) :
    let page := Page.ofSettings options settings
    ∃ plan whole,
      (ask database entity rootAlias access settings options).apply.1.backend.selection.plan =
        .ok plan ∧
      (ask database entity rootAlias access settings plain).apply.1.backend.selection.plan =
        .ok plan.unbounded ∧
      (ask database entity rootAlias access settings plain).execute.2 = .ok whole ∧
      answer.rows = page.slice whole.rows ∧
      answer.total = whole.total ∧
      answer.rows = (plan.loaded database).map plan.present ∧
      whole.rows = (plan.unbounded.loaded database).map plan.present ∧
      plan.loaded database = page.slice (plan.unbounded.loaded database) ∧
      (plan.unbounded.loaded database).Pairwise fun left right =>
        compareBy plan.orderings [some left.1] [some right.1] = .lt := by
  intro page
  obtain ⟨⟨_, applied⟩, plan, planned, rfl⟩ := execute_eq_ok_iff.mp returned
  have sorted := sorts plan planned
  obtain ⟨predicates, sortKeys, expansions, readFilter, readSort, readExpand, _⟩ :=
    Request.apply_returns _ rfl applied
  obtain ⟨_, reached⟩ := ask_applied readFilter readSort readExpand
  have plainFilter :
      (ask database entity rootAlias access settings plain).request.readPredicates =
        .ok predicates := by
    rw [← readFilter]
    exact Request.read_predicates_congr rfl rfl (sameElsewhere settings.filterKey (by simp))
  have plainSort :
      (ask database entity rootAlias access settings plain).request.readSorts =
        .ok sortKeys := by
    rw [← readSort]
    exact Request.read_sorts_congr rfl rfl (sameElsewhere settings.orderbyKey (by simp))
  have plainExpand :
      (ask database entity rootAlias access settings plain).request.readExpansions =
        .ok expansions := by
    rw [← readExpand]
    exact Request.read_expansions_congr rfl rfl (sameElsewhere settings.expandKey (by simp))
  obtain ⟨plainApplied, plainReached⟩ := ask_applied plainFilter plainSort plainExpand
  rw [Page.of_settings_without_bounds plain unlimited without] at plainReached
  rw [reached] at planned ⊢
  rw [plainReached]
  dsimp only at planned ⊢
  have wholePlanned := Selection.plan_unbounded planned
  rw [Selection.unbounded_requested] at wholePlanned
  have executed : (ask database entity rootAlias access settings plain).execute.2 =
      .ok (plan.unbounded.answer database) := by
    refine execute_eq_ok_iff.mpr ⟨⟨_, plainApplied⟩, plan.unbounded, ?_, ?_⟩
    · rw [plainReached]
      exact wholePlanned
    · rw [plainReached]
  obtain ⟨_, _, _, _, ofSelection⟩ := Selection.plan_eq_ok_iff.mp planned
  have soundPlan : database.Sound plan.selection.entity := by
    rw [ofSelection]
    exact sound
  have joins : ∀ relation ∈ plan.selection.joins,
      relation ∈ plan.selection.entity.relations := by
    rw [ofSelection]
    exact Entity.joins_with_of_entity expansions (by simp)
  have loaded := Plan.loaded_is_page soundPlan sorted joins
  have bounds : ∀ items : List (Row × List Joined), plan.bounded items = page.slice items := by
    intro items
    obtain ⟨skipNonneg, limitNonneg⟩ := Page.of_settings_nonneg options settings
    unfold Plan.bounded
    rw [ofSelection]
    exact Page.cut_eq_slice skipNonneg limitNonneg items
  rw [bounds] at loaded
  refine ⟨plan, plan.unbounded.answer database, planned, wholePlanned, executed, ?_,
    congrArg Int.ofNat (Plan.total_is_whole soundPlan), ?_, ?_, loaded, ?_⟩
  · rw [Plan.answer_eq, Plan.answer_eq]
    dsimp only
    rw [loaded, Page.slice_map]
    rfl
  · rw [Plan.answer_eq]
  · rw [Plan.answer_eq]
    rfl
  · have wholeSound : database.Sound plan.unbounded.selection.entity := soundPlan
    have wholeSorted := Plan.unbounded_sorts_roots sorted
    rw [Plan.loaded_eq wholeSound wholeSorted joins, List.pairwise_map]
    exact (Plan.kept_rows_strict wholeSound wholeSorted).sublist (cut_sublist _ _ _)

theorem sample_users_sound : Sample.database.Sound .user where
  keyed := by decide
  distinct := by decide +kernel
  numbers := by decide +kernel
  single := by decide +kernel

theorem sample_orders_sound : Sample.database.Sound .order where
  keyed := by decide
  distinct := by decide +kernel
  numbers := by decide +kernel
  single := by decide +kernel

theorem sample_page_is_slice_of_whole :
    let lines := [("$orderby", Value.text "region ASC, num DESC"), ("$expand", .text "lines")]
    let paged := ask Sample.database .order "entity" {} {}
      (lines ++ [("$top", .text "2"), ("$skip", .text "1")])
    let whole := ask Sample.database .order "entity" {} {} lines
    ∃ answer wholeAnswer, paged.execute.2 = .ok answer ∧ whole.execute.2 = .ok wholeAnswer ∧
      answer.rows = (wholeAnswer.rows.drop 1).take 2 ∧ answer.total = wholeAnswer.total := by
  intro lines paged whole
  have succeeds : paged.execute.2.toOption.isSome = true := by decide +kernel
  obtain ⟨answer, found⟩ := Option.isSome_iff_exists.mp succeeds
  have returned : paged.execute.2 = .ok answer := ok_of_to_option found
  have sorts : ∀ plan, paged.apply.1.backend.selection.plan = .ok plan → plan.SortsRoots := by
    intro plan planned
    obtain ⟨_, _, orderings, _, ofSelection⟩ := Selection.plan_eq_ok_iff.mp planned
    have resolved : paged.apply.1.backend.selection.orderings.mapM
        paged.apply.1.backend.selection.ordering =
          .ok [(⟨0, 0, .text⟩, .ascending), (⟨0, 1, .integer⟩, .descending)] :=
      ok_of_to_option (by decide +kernel)
    rw [resolved] at orderings
    have ofEntity : plan.selection.entity = .order := by
      rw [ofSelection]
      decide +kernel
    refine ⟨?_, ?_⟩
    · rw [← Except.ok.inj orderings]
      decide
    · rw [← Except.ok.inj orderings, ofEntity]
      decide
  obtain ⟨_, wholeAnswer, _, _, wholeReturned, slice, total, _⟩ :=
    page_is_slice_of_whole _ lines sample_orders_sound rfl
      (by simp [Page.optionValue, Value.lookup]) (by simp [lines, Page.optionValue, Value.lookup])
      returned sorts
  have bounds : Page.ofSettings (lines ++ [("$top", .text "2"), ("$skip", .text "1")]) {} =
      ⟨1, 2⟩ := by decide +kernel
  rw [bounds] at slice
  exact ⟨answer, wholeAnswer, returned, wholeReturned, slice, total⟩

end Store

end Sql

end QueryOptions
