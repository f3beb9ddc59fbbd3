import QueryOptions.Proofs.Sql.Paging

/-!
The total counts roots. The rows and the total come from two statements that share the joins and the
conditions, so without bounds there are as many roots as the total says, each of them once. Orderings
and bounds have no part in the total.
-/

namespace QueryOptions

namespace Sql

theorem Cell.value_injective : Function.Injective Cell.value := by
  intro left right same
  cases left <;> cases right <;> cases same <;> rfl

namespace Entity

/-- Every column of the key is among the attributes that a row shows. -/
def ShowsKey (entity : Entity) : Prop :=
  ∀ column ∈ entity.key, ∃ shown ∈ entity.attributes, shown.2 = column

theorem models_show_key : ∀ entity ∈ [Entity.user, Entity.order], entity.ShowsKey := by
  unfold ShowsKey
  decide

end Entity

namespace Plan

variable {plan : Plan} {database : Database}

theorem roots_perm (plan : Plan) (rows : List Joined) :
    (plan.roots rows).Perm (firstByKey plan.key [] rows) := by
  unfold roots
  dsimp only
  split
  · exact List.mergeSort_perm _ _
  · exact List.Perm.refl _

theorem loaded_keys_nodup (plan : Plan) (database : Database) :
    ((plan.loaded database).map fun root =>
      plan.selection.entity.rowKey root.1).Nodup := by
  have firsts := keys_of_firsts_nodup plan.key [] (plan.pageRows database)
  have keys := ((plan.roots_perm (plan.pageRows database)).map plan.key).nodup_iff.mpr firsts
  unfold loaded
  rwa [List.map_map]

theorem row_key_of_present {left right : Row × List Joined}
    (shows : plan.selection.entity.ShowsKey) (same : plan.present left = plan.present right) :
    plan.selection.entity.rowKey left.1 = plan.selection.entity.rowKey right.1 := by
  unfold present at same
  have entries := Value.record.inj same
  have attributes := (List.append_inj entries (by simp only [List.length_map])).1
  apply List.map_congr_left
  intro column member
  obtain ⟨shown, shownMember, rfl⟩ := shows column member
  have entry := List.map_inj_left.mp attributes shown shownMember
  exact Cell.value_injective (congrArg Prod.snd entry)

theorem answer_rows_nodup (shows : plan.selection.entity.ShowsKey) :
    (plan.answer database).rows.Nodup := by
  have apart := loaded_keys_nodup plan database
  rw [answer_eq]
  refine List.Nodup.map_on ?_ (List.Nodup.of_map _ apart)
  intro left leftMember right rightMember same
  exact List.inj_on_of_nodup_map apart leftMember rightMember (row_key_of_present shows same)

theorem unbounded_page_rows (plan : Plan) (database : Database) :
    (plan.unbounded.pageRows database).Perm (plan.filtered database) := by
  have overRows : plan.unbounded.selection.pagesKeys = false := rfl
  unfold pageRows
  rw [if_neg (by rw [overRows]; exact Bool.false_ne_true)]
  exact List.mergeSort_perm _ _

theorem total_of_unbounded :
    plan.total database = (plan.unbounded.answer database).rows.length := by
  have counted := firsts_length_of_perm plan.key (unbounded_page_rows plan database)
  have found := (plan.unbounded.roots_perm (plan.unbounded.pageRows database)).length_eq
  rw [answer_eq, List.length_map, loaded, List.length_map, found]
  exact counted.symm

theorem total_congr {left right : Plan} (entity : left.selection.entity = right.selection.entity)
    (joins : left.selection.joins = right.selection.joins)
    (conditions : left.conditions = right.conditions) (database : Database) :
    left.total database = right.total database := by
  have sameKey : left.key = right.key := by
    unfold key
    rw [entity]
  have sameRows : left.filtered database = right.filtered database := by
    unfold filtered combinations
    rw [entity, joins, conditions]
  unfold total
  rw [sameKey, sameRows]

end Plan

namespace Store

variable {database : Database} {entity : Entity} {rootAlias : String} {access : Access}
  {settings : Settings}

/-- The total is the number of roots that the same request answers without bounds, and it stays the
same under every other order and all other bounds. No root is answered twice. -/
theorem total_counts_roots (options : List (String × Value)) (shows : entity.ShowsKey)
    {answer : Answer}
    (returned : (ask database entity rootAlias access settings options).execute.2 = .ok answer) :
    (∀ plain, settings.maxTop = none →
      (∀ key ∈ [settings.filterKey, settings.orderbyKey, settings.expandKey],
        Page.optionValue plain key = Page.optionValue options key) →
      (∀ key ∈ [settings.topKey, settings.skipKey], Page.optionValue plain key = .null) →
      ∃ whole, (ask database entity rootAlias access settings plain).execute.2 = .ok whole ∧
        answer.total = whole.rows.length) ∧
    (∀ others otherAnswer,
      (∀ key ∈ [settings.filterKey, settings.expandKey],
        Page.optionValue others key = Page.optionValue options key) →
      (ask database entity rootAlias access settings others).execute.2 = .ok otherAnswer →
      otherAnswer.total = answer.total) ∧
    answer.rows.Nodup ∧
    ∃ plan,
      (ask database entity rootAlias access settings options).apply.1.backend.selection.plan =
        .ok plan ∧
      answer.rows = (plan.loaded database).map plan.present ∧
      ((plan.loaded database).map fun root => entity.rowKey root.1).Nodup := by
  obtain ⟨predicates, sorts, expansions, plan, readFilter, readSort, readExpand, planned, rfl⟩ :=
    ask_returned returned
  obtain ⟨_, conditions, _, _, ofSelection⟩ := Selection.plan_eq_ok_iff.mp planned
  have ofEntity : plan.selection.entity = entity := congrArg Selection.entity ofSelection
  refine ⟨?_, ?_, Plan.answer_rows_nodup (ofEntity ▸ shows), plan,
    (ask_executed readFilter readSort readExpand planned).1, ?_, ?_⟩
  · intro plain unlimited sameElsewhere without
    have plainFilter := (same_predicates (sameElsewhere _ (by simp))).trans readFilter
    have plainSort := (same_sorts (sameElsewhere _ (by simp))).trans readSort
    have plainExpand := (same_expansions (sameElsewhere _ (by simp))).trans readExpand
    have wholePlanned := Selection.plan_unbounded planned
    rw [Selection.unbounded_requested,
      ← Page.of_settings_without_bounds plain unlimited without] at wholePlanned
    refine ⟨plan.unbounded.answer database,
      (ask_executed plainFilter plainSort plainExpand wholePlanned).2, ?_⟩
    exact congrArg Int.ofNat Plan.total_of_unbounded
  · intro others otherAnswer sameTerms otherReturned
    obtain ⟨otherPredicates, _, otherExpansions, otherPlan, otherFilter, _, otherExpand,
      otherPlanned, rfl⟩ := ask_returned otherReturned
    have samePredicates : otherPredicates = predicates :=
      Except.ok.inj (otherFilter.symm.trans
        ((same_predicates (sameTerms _ (by simp))).trans readFilter))
    have sameExpansions : otherExpansions = expansions :=
      Except.ok.inj (otherExpand.symm.trans
        ((same_expansions (sameTerms _ (by simp))).trans readExpand))
    subst samePredicates sameExpansions
    obtain ⟨_, otherConditions, _, _, ofOther⟩ := Selection.plan_eq_ok_iff.mp otherPlanned
    refine congrArg Int.ofNat (Plan.total_congr ?_ ?_ ?_ database)
    · rw [ofOther, ofSelection]
      rfl
    · rw [ofOther, ofSelection]
      rfl
    · exact Except.ok.inj (otherConditions.symm.trans conditions)
  · rw [Plan.answer_eq]
  · rw [← ofEntity]
    exact Plan.loaded_keys_nodup plan database

/-- Three users have a post that is not the third one of the first user. Their five joined rows are
counted and answered as three roots, sorted by the titles or not. -/
theorem joined_total_counts_roots :
    let terms := [("$filter", Value.text "posts.title ne 'c'"), ("$expand", .text "posts,profile")]
    let byTitle := terms ++ [("$orderby", .text "posts.title DESC")]
    let first := ask Sample.database .user "entity" {} {} (byTitle ++ [("$top", .text "1")])
    let whole := ask Sample.database .user "entity" {} {} byTitle
    let byId := ask Sample.database .user "entity" {} {}
      (terms ++ [("$orderby", .text "id ASC"), ("$skip", .text "2")])
    ∃ answer wholeAnswer otherAnswer, first.execute.2 = .ok answer ∧
      whole.execute.2 = .ok wholeAnswer ∧ byId.execute.2 = .ok otherAnswer ∧
      answer.total = 3 ∧ answer.total = wholeAnswer.rows.length ∧
      otherAnswer.total = answer.total ∧ answer.rows.Nodup := by
  intro terms byTitle first whole byId
  have counted : first.execute.2.toOption.map Answer.total = some 3 := by decide +kernel
  obtain ⟨answer, found, three⟩ := Option.map_eq_some_iff.mp counted
  have succeeds : byId.execute.2.toOption.isSome = true := by decide +kernel
  obtain ⟨otherAnswer, otherFound⟩ := Option.isSome_iff_exists.mp succeeds
  have returned : first.execute.2 = .ok answer := ok_of_to_option found
  have otherReturned : byId.execute.2 = .ok otherAnswer := ok_of_to_option otherFound
  have shows : Entity.user.ShowsKey := Entity.models_show_key .user (by simp)
  obtain ⟨ofWhole, ofOthers, distinct, _⟩ := total_counts_roots _ shows returned
  obtain ⟨wholeAnswer, wholeReturned, total⟩ := ofWhole byTitle rfl
    (by simp [byTitle, terms, Page.optionValue, Value.lookup])
    (by simp [byTitle, terms, Page.optionValue, Value.lookup])
  have sameTotal := ofOthers _ otherAnswer
    (by simp [byTitle, terms, Page.optionValue, Value.lookup]) otherReturned
  exact ⟨answer, wholeAnswer, otherAnswer, returned, wholeReturned, otherReturned, three, total,
    sameTotal, distinct⟩

end Store

end Sql

end QueryOptions
