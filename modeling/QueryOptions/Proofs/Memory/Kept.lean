import QueryOptions.Proofs.Memory.Responses

/-!
A query to a collection keeps the rows that it selects. The total counts the rows that satisfy all
predicates, an order puts just these rows into another order, and the bounds cut out a part of them.
Nothing is assumed of the values in the rows: they need not have an order that makes sense.
-/

namespace QueryOptions.Memory.Collection

section Queries

variable [Attributes]

def kept (rows : List Value) (rootAlias : String) (predicates : List Predicate) : List Value :=
  rows.filter fun row => predicates.all fun predicate =>
    satisfies { rows := rows, rootAlias := rootAlias } row (.ofPredicate predicate)

theorem requested_matching (rows : List Value) (rootAlias qualifier : String)
    (predicates : List Predicate) (sorts : List SortKey) (page : Page) :
    (requested rows rootAlias qualifier predicates sorts page).matching =
      kept rows rootAlias predicates := by
  unfold matching kept requested
  refine List.filter_congr fun row _ => ?_
  rw [List.all_map]
  rfl

variable {rows : List Value} {rootAlias : String} {access : Access} {settings : Settings}
  {options : List (String × Value)} {answer : Answer}

theorem total_of_execution {predicates : List Predicate}
    (executed : (ask rows rootAlias access settings options).execute.2 = .ok answer)
    (readFilter : (ask rows rootAlias access settings options).request.readPredicates =
      .ok predicates) : answer.total = (kept rows rootAlias predicates).length := by
  obtain ⟨found, sorts, expansions, ordered, foundFilter, readSort, readExpand, testable, sorted⟩ :=
    reads_of_execution executed
  have gives : Gives rows rootAlias access settings options ordered :=
    ⟨found, sorts, expansions, foundFilter, readSort, readExpand, testable, sorted⟩
  rw [readFilter] at foundFilter
  cases foundFilter
  rw [gives.executes] at executed
  cases executed
  rw [(ordered_perm sorted).length_eq, requested_matching]

theorem ordered_without_sorts {ordered : List Value} {qualifier : String}
    {predicates : List Predicate} {sorts : List SortKey} {page : Page}
    (sorted : (requested rows rootAlias qualifier predicates sorts page).ordered = .ok ordered)
    (without : (requested rows rootAlias qualifier predicates sorts page).orderings = []) :
    ordered = kept rows rootAlias predicates := by
  unfold Collection.ordered at sorted
  rw [without, requested_matching] at sorted
  exact (Except.ok.inj sorted).symm

/-- A query that is executed neither loses nor invents rows. The total is the number of rows that
satisfy the predicates that were taken over, and no option but the filter has a part in it. Without
bounds the rows are these very rows, in their own order if no other is asked for, and the rows of a
page are cut out of them. -/
theorem query_keeps_rows {after : Session Collection}
    (executed : (ask rows rootAlias access settings options).execute = (after, .ok answer)) :
    after.backend.conditions = after.request.predicates.map Condition.ofPredicate ∧
    answer.total = (kept rows rootAlias after.request.predicates).length ∧
    (∀ others ceiling other,
      Page.optionValue others settings.filterKey = Page.optionValue options settings.filterKey →
      (ask rows rootAlias access { settings with maxTop := ceiling } others).execute.2 =
        .ok other → other.total = answer.total) ∧
    ∃ whole page,
      execute { after.backend with limit := none, offset := none } = .ok ⟨whole, answer.total⟩ ∧
      (∀ others ceiling,
        (∀ key ∈ settings.termKeys,
          (Page.optionValue options key).heldText = (Page.optionValue others key).heldText) →
        Page.ofSettings others { settings with maxTop := ceiling } = ⟨0, 0⟩ →
        (ask rows rootAlias access { settings with maxTop := ceiling } others).execute.2 =
          .ok ⟨whole, answer.total⟩) ∧
      whole.Perm (kept rows rootAlias after.request.predicates) ∧
      (after.backend.orderings = [] → whole = kept rows rootAlias after.request.predicates) ∧
      after.request.page = some page ∧ answer.rows = page.slice whole ∧
      (answer.rows.length : Int) =
        if page.limit = 0 then max 0 (answer.total - page.skip)
        else min page.limit (max 0 (answer.total - page.skip)) := by
  have returned := congrArg Prod.snd executed
  obtain ⟨predicates, sorts, expansions, ordered, readFilter, readSort, readExpand, testable,
    sorted⟩ := reads_of_execution returned
  have gives : Gives rows rootAlias access settings options ordered :=
    ⟨predicates, sorts, expansions, readFilter, readSort, readExpand, testable, sorted⟩
  obtain ⟨known, applied⟩ := ask_leaves readFilter readSort readExpand
  obtain ⟨skipNonneg, limitNonneg⟩ := Page.of_settings_nonneg options settings
  have unbounded : (requested rows rootAlias settings.rootAlias predicates sorts ⟨0, 0⟩).execute =
      .ok ⟨ordered, ordered.length⟩ :=
    requested_executes testable sorted (Int.le_refl 0) (Int.le_refl 0)
  have total := total_of_execution returned readFilter
  have left := Session.execute_of_ok (congrArg Prod.snd applied)
  rw [applied, executed] at left
  cases congrArg Prod.fst left
  rw [gives.executes] at returned
  cases returned
  refine ⟨rfl, total, ?_, ordered, Page.ofSettings options settings, unbounded, ?_, ?_, ?_, rfl,
    rfl, Page.slice_length skipNonneg limitNonneg ordered⟩
  · intro others ceiling other filter otherExecuted
    have sameFilter : (ask rows rootAlias access settings others).request.readPredicates =
        (ask rows rootAlias access settings options).request.readPredicates :=
      Request.read_predicates_congr rfl rfl filter
    rw [total, total_of_execution otherExecuted (sameFilter.trans readFilter)]
  · intro others ceiling held without
    rw [(gives.of_same_terms ceiling held).executes, without]
    rfl
  · rw [← requested_matching rows rootAlias settings.rootAlias predicates sorts
      (Page.ofSettings options settings)]
    exact ordered_perm sorted
  · exact ordered_without_sorts sorted

end Queries

attribute [local instance] Attributes.bare in
/-- Four of five rows have a name; the scores of two of these are no numbers. -/
theorem query_keeps_rows_without_order :
    let scores : List Value := [.record [("name", .text "Ann"), ("score", .real .nan)],
      .record [("name", .null), ("score", .integer 7)],
      .record [("name", .text "Cid"), ("score", .integer 1)],
      .record [("name", .text "Dora"), ("score", .real .nan)],
      .record [("name", .text "Eve"), ("score", .integer 3)]]
    let options := [("$filter", Value.text "name ne null"), ("$orderby", .text "score desc"),
      ("$top", .text "2"), ("$skip", .text "1")]
    ∃ after answer whole,
      (ask scores "entity" {} {} options).execute = (after, .ok answer) ∧ answer.total = 4 ∧
      whole.Perm (kept scores "entity" after.request.predicates) ∧
      answer.rows = Page.slice ⟨1, 2⟩ whole ∧ answer.rows.length = 2 := by
  intro scores options
  have counted : (ask scores "entity" {} {} options).execute.2.toOption.map Answer.total =
      some 4 := by
    decide +kernel
  have paged : (ask scores "entity" {} {} options).execute.1.request.page = some ⟨1, 2⟩ := by
    decide +kernel
  rcases executed : (ask scores "entity" {} {} options).execute with ⟨after, failure | answer⟩
  · rw [executed] at counted
    cases counted
  · obtain ⟨_, _, _, whole, page, _, _, perm, _, known, rows, length⟩ := query_keeps_rows executed
    rw [executed] at counted paged
    obtain rfl := Option.some.inj (known.symm.trans paged)
    have total : answer.total = 4 := Option.some.inj counted
    rw [total] at length
    exact ⟨after, answer, whole, rfl, total, perm, rows, Int.ofNat_inj.mp length⟩

end QueryOptions.Memory.Collection
