import QueryOptions.Proofs.Request.Aliases

/-!
The alias of the root is only a name. Sessions with a collection that differ in nothing but the
alias ask the same of the rows and reply alike, step after step, whatever the alias is. It only must
not be what a dotted field starts with.
-/

namespace QueryOptions

namespace Session

open Memory Memory.Collection

variable [Attributes]

/-- Applying is all that a step leaves behind: a collection is executed without a trace. -/
theorem perform_leaves_applied (session : Session Collection) {step : Step}
    (applies : step.applies = true) : (session.perform step).1 = session.apply.1 := by
  cases outcome : session.apply.2 with
  | error failure => exact session.perform_of_error applies outcome
  | ok page =>
      rw [session.perform_of_ok applies outcome]
      split <;> rfl

structure IsAliased (session : Session Collection) : Prop where
  agrees : session.backend.rootAlias = session.request.settings.rootAlias
  apart : session.request.IsApartFromFields

theorem IsAliased.apply {session : Session Collection} (aliased : session.IsAliased) :
    session.apply.1.IsAliased := by
  obtain ⟨settings, options⟩ := session.request.apply_keeps_terms
  constructor
  · calc session.apply.1.backend.rootAlias
        = session.backend.rootAlias :=
          session.backend.receive_all_root_alias session.request.apply.calls
      _ = session.request.settings.rootAlias := aliased.agrees
      _ = session.apply.1.request.settings.rootAlias := congrArg Settings.rootAlias settings.symm
  · have apart := aliased.apart
    unfold Request.IsApartFromFields at apart ⊢
    change IsApart session.request.apply.request.settings.rootAlias
      (namedFields session.request.apply.request.settings session.request.apply.request.options)
    rwa [settings, options]

structure ButAlias (left right : Session Collection) : Prop where
  requests : Request.ButAlias left.request right.request
  backends : SameInside left.backend right.backend
  leftAliased : left.IsAliased
  rightAliased : right.IsAliased

namespace ButAlias

variable {left right : Session Collection} (same : ButAlias left right)

include same

omit [Attributes] in
theorem withAccess (allow : Access → Access) :
    ButAlias (left.withAccess (allow left.request.access))
      (right.withAccess (allow right.request.access)) where
  requests := ⟨same.requests.options, congrArg allow same.requests.access,
    same.requests.settings, same.requests.page⟩
  backends := same.backends
  leftAliased := ⟨same.leftAliased.agrees, same.leftAliased.apart⟩
  rightAliased := ⟨same.rightAliased.agrees, same.rightAliased.apart⟩

theorem apply : left.apply.2 = right.apply.2 ∧ ButAlias left.apply.1 right.apply.1 := by
  obtain ⟨calls, result, requests⟩ :=
    same.requests.apply same.leftAliased.apart same.rightAliased.apart
  rw [← same.leftAliased.agrees, ← same.rightAliased.agrees] at calls
  exact ⟨result, requests, same.backends.receive_all calls, same.leftAliased.apply,
    same.rightAliased.apply⟩

theorem execute : left.execute.2 = right.execute.2 := by
  obtain ⟨result, applied⟩ := same.apply
  cases outcome : right.apply.2 with
  | error failure => rw [execute_of_error outcome, execute_of_error (result.trans outcome)]
  | ok page =>
      rw [execute_of_ok outcome, execute_of_ok (result.trans outcome)]
      exact applied.backends.execute

theorem respond : left.respond.2 = right.respond.2 := by
  obtain ⟨result, applied⟩ := same.apply
  cases outcome : right.apply.2 with
  | error failure => rw [respond_of_error outcome, respond_of_error (result.trans outcome)]
  | ok page =>
      rw [respond_of_ok outcome, respond_of_ok (result.trans outcome)]
      exact congrArg (Except.map _) applied.backends.execute

/-- One step: the replies are the same, and the sessions still differ only in the alias. -/
theorem perform (step : Step) :
    (left.perform step).2 = (right.perform step).2 ∧
      ButAlias (left.perform step).1 (right.perform step).1 := by
  cases applies : step.applies with
  | false =>
      rw [perform_allow left applies, perform_allow right applies]
      refine ⟨?_, same.withAccess fun access => step.allow access⟩
      cases step with
      | allowFilters fields => rfl
      | allowSorts fields => rfl
      | allowExpands relations => rfl
      | _ => cases applies
  | true =>
      rw [perform_leaves_applied left applies, perform_leaves_applied right applies]
      refine ⟨?_, same.apply.2⟩
      cases step with
      | apply => exact congrArg Reply.page same.apply.1
      | execute => exact congrArg Reply.answer same.execute
      | respond => exact congrArg Reply.envelope same.respond
      | links baseUrl =>
          have linked : (left.links baseUrl).2 = (right.links baseUrl).2 := by
            rw [links_of_respond, links_of_respond, same.respond, same.requests.settings,
              same.requests.options]
            rfl
          exact congrArg Reply.links linked
      | _ => cases applies

theorem run (steps : List Step) : ButAlias (left.run steps) (right.run steps) := by
  induction steps generalizing left right with
  | nil => exact same
  | cons step steps induction => exact induction (same.perform step).2

end ButAlias

end Session

namespace Memory

section Values

variable [Attributes]

/-- The value of a row that a field stands for: a bare one is a key, a dotted one spells a path. -/
def valueAt (row : Value) (field : String) : Value :=
  if '.' ∈ field.toList then resolve row field else step row field

theorem resolve_eq_value_at (row : Value) (field : String) :
    resolve row field = valueAt row field := by
  unfold valueAt
  split
  · rfl
  · rename_i bare
    unfold resolve
    rw [Text.split_at_char_of_not_mem bare, List.map_singleton, String.ofList_toList]
    rfl

theorem resolve_qualified {rootAlias field : String}
    (apart : ¬(rootAlias ++ ".").toList <+: field.toList) (row : Value) :
    resolve row (pathUnder rootAlias (qualifyField field rootAlias)) = valueAt row field := by
  rw [path_under_qualified apart, resolve_eq_value_at]

end Values

namespace Collection

section Aliased

variable [Attributes]

/-- What a collection looks at in a row to test and to order it are the values that the fields of
some clauses and sort keys stand for. -/
structure LooksUp (collection : Collection) (clauses : List Clause) (sorts : List SortKey) :
    Prop where
  conditions (row : Value) :
    (collection.conditions.map fun condition =>
        (condition.operator, resolve row (collection.localPath condition.field))) =
      clauses.map fun clause => (clause.operator, valueAt row clause.field)
  orderings (row : Value) :
    (collection.orderings.map fun ordering =>
        (ordering.2, resolve row (collection.localPath ordering.1))) =
      sorts.map fun sort => (sort.direction, valueAt row sort.field)

variable {rows : List Value} {access : Access} {settings : Settings}
  {options : List (String × Value)}

omit [Attributes] in
theorem ask_but_alias {left right : String}
    (leftApart : IsApart left (namedFields settings options))
    (rightApart : IsApart right (namedFields settings options)) :
    Session.ButAlias (ask rows left access (settings.withAlias left) options)
      (ask rows right access (settings.withAlias right) options) where
  requests := ⟨rfl, rfl, rfl, rfl⟩
  backends := ⟨rfl, rfl, rfl, rfl, rfl⟩
  leftAliased := ⟨rfl, leftApart⟩
  rightAliased := ⟨rfl, rightApart⟩

theorem asks_of_fields {root : String} (apart : IsApart root (namedFields settings options))
    {page : Page}
    (applied : (ask rows root access (settings.withAlias root) options).apply.2 = .ok page) :
    ∃ clauses sorts,
      Filter.read .standard settings.strictness (Page.optionValue options settings.filterKey) =
        .ok clauses ∧
      SortKey.read access settings.strictness (Page.optionValue options settings.orderbyKey) =
        .ok sorts ∧
      (ask rows root access (settings.withAlias root) options).apply.1.backend.LooksUp
        (clauses.filter access.takes) sorts := by
  let request := (ask rows root access (settings.withAlias root) options).request
  obtain ⟨predicates, sorts, expansions, readFilter, readSort, readExpand, _⟩ :=
    request.apply_returns rfl applied
  obtain ⟨clauses, read, resolved⟩ := (request.read_predicates_iff predicates).mp readFilter
  obtain ⟨known, leaves⟩ := ask_leaves readFilter readSort readExpand
  have readOrder := ok_of_map_error readSort
  -- The fields are those of the predicates, which are qualified; the collection undoes that.
  have fields := request.scope.resolve_all_fields resolved
  rw [leaves]
  refine ⟨clauses, sorts, read, readOrder, fun row => ?_, fun row => ?_⟩
  · calc (predicates.map Condition.ofPredicate).map (fun condition =>
            (condition.operator, resolve row (pathUnder root condition.field)))
        = (predicates.map fun predicate => (predicate.operator, predicate.field)).map
            (fun asked => (asked.1, resolve row (pathUnder root asked.2))) := by
          rw [List.map_map, List.map_map]
          rfl
      _ = (clauses.filter access.takes).map (fun clause =>
            (clause.operator, resolve row (pathUnder root (qualifyField clause.field root)))) := by
          rw [fields, List.map_map]
          rfl
      _ = _ := by
          refine List.map_congr_left fun clause taken => ?_
          have named := clause_field_named read (List.mem_filter.mp taken).1
          rw [resolve_qualified (apart clause.field named) row]
  · calc (sorts.map fun sort => (qualifyField sort.field root, sort.direction)).map
            (fun ordering => (ordering.2, resolve row (pathUnder root ordering.1)))
        = sorts.map (fun sort =>
            (sort.direction, resolve row (pathUnder root (qualifyField sort.field root)))) := by
          rw [List.map_map]
          rfl
      _ = _ := by
          refine List.map_congr_left fun sort member => ?_
          rw [resolve_qualified (apart sort.field (sort_field_named readOrder member)) row]

/-- Whatever is done with a request, it comes to the same under every alias of the root that no
field starts with: the same pages, rows and totals, or the same failures. What the collection looks
at in a row is, for a bare field, the value under that key and, for a dotted one, the value at the
path. -/
theorem root_alias_is_only_a_name (rows : List Value) (access : Access) (settings : Settings)
    (options : List (String × Value)) {left right : String}
    (leftApart : IsApart left (namedFields settings options))
    (rightApart : IsApart right (namedFields settings options)) :
    let asked (root : String) := ask rows root access (settings.withAlias root) options
    (asked left).apply.2 = (asked right).apply.2 ∧
    (asked left).execute.2 = (asked right).execute.2 ∧
    (∀ (steps : List Session.Step) (step : Session.Step),
      (((asked left).run steps).perform step).2 = (((asked right).run steps).perform step).2) ∧
    ∀ root ∈ [left, right], ∀ page, (asked root).apply.2 = .ok page →
      ∃ clauses sorts,
        Filter.read .standard settings.strictness (Page.optionValue options settings.filterKey) =
          .ok clauses ∧
        SortKey.read access settings.strictness (Page.optionValue options settings.orderbyKey) =
          .ok sorts ∧
        (asked root).apply.1.backend.LooksUp (clauses.filter access.takes) sorts := by
  intro asked
  have same : Session.ButAlias (asked left) (asked right) := ask_but_alias leftApart rightApart
  refine ⟨same.apply.1, same.execute, fun steps step => ((same.run steps).perform step).1, ?_⟩
  intro root known page applied
  have apart : IsApart root (namedFields settings options) := by
    rcases List.mem_pair.mp known with rfl | rfl
    · exact leftApart
    · exact rightApart
  exact asks_of_fields apart applied

end Aliased

def residents : List Value :=
  [resident "Ada" 36 "Bern", resident "Ben" 17 "Bern", resident "Cleo" 52 "Basel",
    resident "Dan" 41 "Bern"]
where
  resident (name : String) (age : Int) (city : String) : Value :=
    .record [("name", .text name), ("age", .integer age),
      ("address", .record [("city", .text city)])]

def residentOptions : List (String × Value) :=
  [("$filter", .text "address.city eq 'Bern' and age gt 18"),
    ("$orderby", .text "address.city asc, name desc"), ("$top", .text "1")]

attribute [local instance] Attributes.bare in
/-- The alias may be empty, or it may be a dotted field itself. -/
theorem root_alias_is_only_a_name_odd :
    let asked (root : String) :=
      ask residents root {} (Settings.withAlias {} root) residentOptions
    IsApart "" (namedFields {} residentOptions) ∧
      IsApart "address.city" (namedFields {} residentOptions) ∧
      (asked "").execute.2 = (asked "address.city").execute.2 ∧
      ((asked "").execute.2.toOption.map fun answer => (answer.rows.length, answer.total)) =
        some (1, 2) ∧
      (asked "address.city").apply.1.backend.LooksUp
        [⟨"address.city", .comparison .eq, some "'Bern'", 0⟩,
          ⟨"age", .comparison .gt, some "18", 1⟩]
        [⟨"address.city", .ascending⟩, ⟨"name", .descending⟩] := by
  intro asked
  have emptyApart : IsApart "" (namedFields {} residentOptions) := by decide +kernel
  have dottedApart : IsApart "address.city" (namedFields {} residentOptions) := by decide +kernel
  obtain ⟨_, sameAnswer, _, fields⟩ :=
    root_alias_is_only_a_name residents {} {} residentOptions emptyApart dottedApart
  have applied : (asked "address.city").apply.2 = .ok ⟨0, 1⟩ :=
    ok_of_to_option (by decide +kernel)
  obtain ⟨clauses, sorts, read, readOrder, looksUp⟩ :=
    fields "address.city" (by simp) ⟨0, 1⟩ applied
  have knownClauses : Filter.read .standard .lenient
      (Page.optionValue residentOptions "$filter") =
        .ok [⟨"address.city", .comparison .eq, some "'Bern'", 0⟩,
          ⟨"age", .comparison .gt, some "18", 1⟩] := ok_of_to_option (by decide +kernel)
  have knownSorts : SortKey.read {} .lenient (Page.optionValue residentOptions "$orderby") =
      .ok [⟨"address.city", .ascending⟩, ⟨"name", .descending⟩] :=
    ok_of_to_option (by decide +kernel)
  cases knownClauses.symm.trans read
  cases knownSorts.symm.trans readOrder
  exact ⟨emptyApart, dottedApart, sameAnswer, by decide +kernel, looksUp⟩

end Collection

end Memory

end QueryOptions
