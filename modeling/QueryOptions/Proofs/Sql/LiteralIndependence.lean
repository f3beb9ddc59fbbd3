import QueryOptions.Proofs.Request.Shape
import QueryOptions.Proofs.Sql.Received
import QueryOptions.Sql.Statement

/-!
Statements do not depend on literals. Calls of one shape leave selections that differ in their
literals only, and neither a statement's text nor the names of its parameters look at a literal.
-/

namespace QueryOptions

namespace Predicate

variable {lefts rights : List Predicate}

theorem templates_of_shapes (shapes : List.Forall₂ SameShape lefts rights) :
    lefts.map (·.template) = rights.map (·.template) := by
  induction shapes with
  | nil => rfl
  | cons head _ induction => rw [List.map_cons, List.map_cons, head.template, induction]

theorem names_of_shapes (shapes : List.Forall₂ SameShape lefts rights) :
    (lefts.filterMap fun predicate => predicate.binding.map (·.name)) =
      rights.filterMap fun predicate => predicate.binding.map (·.name) := by
  induction shapes with
  | nil => rfl
  | cons head _ induction => rw [List.filterMap_cons, List.filterMap_cons, head.name, induction]

end Predicate

namespace Sql

namespace Selection

structure Alike (left right : Selection) : Prop where
  rest : right = { left with predicates := right.predicates }
  shapes : List.Forall₂ Predicate.SameShape left.predicates right.predicates

theorem Alike.refl (selection : Selection) : selection.Alike selection where
  rest := rfl
  shapes := List.forall₂_same.mpr fun _ _ => ⟨rfl, rfl, rfl, rfl⟩

theorem expand_with_predicates (selection : Selection) (predicates : List Predicate)
    (name : String) :
    expand { selection with predicates := predicates } name =
      { selection.expand name with predicates := predicates } := by
  rw [expand_eq, expand_eq]

theorem expand_predicates (selection : Selection) (name : String) :
    (selection.expand name).predicates = selection.predicates := by
  rw [expand_eq]

theorem receive_alike {left right : Selection} (alike : left.Alike right)
    {leftCall rightCall : Call} (shape : leftCall.SameShape rightCall) :
    (left.receive leftCall).Alike (right.receive rightCall) := by
  obtain ⟨rest, shapes⟩ := alike
  cases shape with
  | predicate shape =>
      refine ⟨?_, List.rel_append shapes (.cons shape .nil)⟩
      simp only [receive]
      rw [rest]
  | same =>
      cases leftCall with
      | addPredicate predicate =>
          refine ⟨?_, List.rel_append shapes (.cons ⟨rfl, rfl, rfl, rfl⟩ .nil)⟩
          simp only [receive]
          rw [rest]
      | addExpansion relation =>
          simp only [receive]
          refine ⟨?_, ?_⟩
          · rw [expand_predicates]
            conv_lhs => rw [rest]
            rw [expand_with_predicates]
          · rw [expand_predicates, expand_predicates]
            exact shapes
      | addOrdering field direction =>
          refine ⟨?_, shapes⟩
          simp only [receive]
          rw [rest]
      | setLimit limit =>
          refine ⟨?_, shapes⟩
          simp only [receive]
          rw [rest]
      | setOffset offset =>
          refine ⟨?_, shapes⟩
          simp only [receive]
          rw [rest]

theorem receive_all_alike {left right : Selection} (alike : left.Alike right)
    {leftCalls rightCalls : List Call}
    (shapes : List.Forall₂ Call.SameShape leftCalls rightCalls) :
    (leftCalls.foldl receive left).Alike (rightCalls.foldl receive right) := by
  induction shapes generalizing left right with
  | nil => exact alike
  | cons head _ induction => exact induction (receive_alike alike head)

section Texts

variable {left right : Selection}

theorem Alike.condition_texts (alike : left.Alike right) :
    left.conditionTexts = right.conditionTexts := by
  exact Predicate.templates_of_shapes alike.shapes

theorem Alike.rows_text (alike : left.Alike right) : left.rowsText = right.rowsText := by
  have conditions := alike.condition_texts
  obtain ⟨rest, _⟩ := alike
  generalize right.predicates = predicates at rest
  subst rest
  unfold rowsText pageCondition
  rw [conditions]
  rfl

theorem Alike.count_text (alike : left.Alike right) : left.countText = right.countText := by
  have conditions := alike.condition_texts
  obtain ⟨rest, _⟩ := alike
  generalize right.predicates = predicates at rest
  subst rest
  unfold countText
  rw [conditions]
  rfl

end Texts

/-- The names under which literals are bound, in their order; a name that comes again moves to the
end. -/
def rebound (names : List String) (name : String) : List String :=
  names.filter (fun earlier => earlier ≠ name) ++ [name]

theorem binding_names (selection : Selection) :
    selection.bindings.map (·.name) =
      (selection.predicates.filterMap fun predicate =>
        predicate.binding.map (·.name)).foldl rebound [] := by
  have general (added earlier : List Binding) :
      (added.foldl (fun bindings binding =>
          bindings.filter (fun earlier => earlier.name ≠ binding.name) ++ [binding])
        earlier).map (·.name) =
        (added.map (·.name)).foldl rebound (earlier.map (·.name)) := by
    induction added generalizing earlier with
    | nil => rfl
    | cons binding added induction =>
        rw [List.foldl_cons, induction, List.map_cons, List.foldl_cons]
        congr 1
        simp only [rebound, List.map_append, List.map_cons, List.map_nil, List.filter_map]
        rfl
  rw [bindings, general, List.map_filterMap]
  rfl

theorem Alike.binding_names {left right : Selection} (alike : left.Alike right) :
    left.bindings.map (·.name) = right.bindings.map (·.name) := by
  rw [Selection.binding_names, Selection.binding_names,
    Predicate.names_of_shapes alike.shapes]

theorem Alike.parameter_names {left right : Selection} (alike : left.Alike right) :
    left.rowsStatement.parameters.map Prod.fst = right.rowsStatement.parameters.map Prod.fst ∧
      left.countStatement.parameters.map Prod.fst =
        right.countStatement.parameters.map Prod.fst := by
  have literals : left.literalParameters.map Prod.fst = right.literalParameters.map Prod.fst := by
    have names := alike.binding_names
    simp only [literalParameters, List.map_map, Function.comp_def]
    exact names
  have bounds : left.boundParameters = right.boundParameters := by
    rw [alike.rest]
    rfl
  constructor
  · simp only [rowsStatement, List.map_append, literals, bounds]
  · exact literals

end Selection

namespace Store

/-- Two filters that agree up to their raw values, next to the same other options: the builder ends
alike, makes calls of one shape, refuses the same clauses, and the statements that come of it are
the same texts over the same parameter names. No character of a literal reaches a text. -/
theorem statements_independent_of_literals (store : Store) (access : Access)
    (settings : Settings) (left right : List (String × Value))
    (sameElsewhere : ∀ key ∈ [settings.orderbyKey, settings.expandKey, settings.topKey,
      settings.skipKey], Page.optionValue left key = Page.optionValue right key)
    (leftClauses rightClauses : List Clause)
    (leftRead : Filter.read .standard settings.strictness
      (Page.optionValue left settings.filterKey) = .ok leftClauses)
    (rightRead : Filter.read .standard settings.strictness
      (Page.optionValue right settings.filterKey) = .ok rightClauses)
    (agree : List.Forall₂ Clause.Agrees leftClauses rightClauses)
    (leftReadable : ∀ clause ∈ leftClauses, clause.IsReadable)
    (rightReadable : ∀ clause ∈ rightClauses, clause.IsReadable) :
    let request := fun options : List (String × Value) =>
      ({ options := options, access := access, settings := settings } : Request)
    let reached := fun options : List (String × Value) =>
      (Session.apply ⟨request options, store⟩).1.backend.selection
    (request left).apply.result = (request right).apply.result ∧
      List.Forall₂ Call.SameShape (request left).apply.calls (request right).apply.calls ∧
      List.Forall₂
        (fun leftClause rightClause => SameOutcome ((request left).scope.resolve leftClause)
          ((request right).scope.resolve rightClause)) leftClauses rightClauses ∧
      (reached left).rowsStatement.text = (reached right).rowsStatement.text ∧
      (reached left).countStatement.text = (reached right).countStatement.text ∧
      (reached left).rowsStatement.parameters.map Prod.fst =
        (reached right).rowsStatement.parameters.map Prod.fst ∧
      (reached left).countStatement.parameters.map Prod.fst =
        (reached right).countStatement.parameters.map Prod.fst ∧
      ∀ predicate, (.addPredicate predicate ∈ (request left).apply.calls ∨
          .addPredicate predicate ∈ (request right).apply.calls) →
        predicate.IsOnPath settings.rootAlias ∧
          (Identifier.isPath settings.rootAlias = true →
            Identifier.isPath predicate.field = true) := by
  intro request reached
  have rest : Request.SameRest (request left) (request right) := ⟨rfl, rfl, sameElsewhere⟩
  obtain ⟨shapes, result⟩ := Request.apply_same_shape rest rfl rfl leftRead rightRead agree
    leftReadable rightReadable
  have reachedBy (options : List (String × Value)) :
      reached options = (request options).apply.calls.foldl Selection.receive store.selection := by
    have received := receive_all_eq store (request options).apply.calls
    exact congrArg Store.selection received
  have alike : (reached left).Alike (reached right) := by
    rw [reachedBy, reachedBy]
    exact Selection.receive_all_alike (Selection.Alike.refl store.selection) shapes
  obtain ⟨rowNames, countNames⟩ := alike.parameter_names
  refine ⟨result, shapes, ?_, alike.rows_text, alike.count_text, rowNames, countNames, ?_⟩
  · exact (request left).scope.resolve_each_same_outcome agree leftReadable rightReadable
  · intro predicate called
    have onPath : predicate.IsOnPath settings.rootAlias :=
      called.elim (Request.apply_calls_on_paths (request left) rfl)
        (Request.apply_calls_on_paths (request right) rfl)
    exact ⟨onPath, onPath.field_is_path⟩

/-- A store of users, and a filter on them with an innocent or a hostile literal. -/
def probed : Store := ⟨⟨fun _ => []⟩, { entity := .user }⟩

theorem probed_statements_independent_of_literals :
    let read := fun text : String => Filter.read .standard .lenient (.text text)
    let reached := fun text : String =>
      (Session.apply ⟨{ options := [("$filter", .text text), ("$top", .text "5")] },
        probed⟩).1.backend.selection
    let innocent := "name eq 'x' and contains(email, 'y')"
    let hostile := "name eq 'x'' OR 1=1; DROP TABLE users; --' and contains(email, :val0)"
    (∃ clauses, read innocent = .ok clauses ∧ clauses.length = 2) ∧
      (∃ clauses, read hostile = .ok clauses ∧ clauses.length = 2) ∧
      (reached innocent).rowsStatement.text = (reached hostile).rowsStatement.text ∧
      (reached innocent).countStatement.text = (reached hostile).countStatement.text := by
  intro read reached innocent hostile
  let leftClauses : List Clause :=
    [⟨"name", .comparison .eq, some "'x'", 0⟩, ⟨"email", .pattern .contains, some "'y'", 1⟩]
  let rightClauses : List Clause := [
    ⟨"name", .comparison .eq, some "'x'' OR 1=1; DROP TABLE users; --'", 0⟩,
    ⟨"email", .pattern .contains, some ":val0", 1⟩]
  have leftRead : read innocent = .ok leftClauses := ok_of_to_option (by decide +kernel)
  have rightRead : read hostile = .ok rightClauses := ok_of_to_option (by decide +kernel)
  obtain ⟨_, _, _, rowTexts, countTexts, _⟩ :=
    statements_independent_of_literals probed {} {}
      [("$filter", .text innocent), ("$top", .text "5")]
      [("$filter", .text hostile), ("$top", .text "5")] (by simp [Page.optionValue, Value.lookup])
      leftClauses rightClauses leftRead rightRead
      (.cons ⟨rfl, rfl, rfl⟩ (.cons ⟨rfl, rfl, rfl⟩ .nil))
      (Clause.readable_of_short (by decide)) (Clause.readable_of_short (by decide))
  exact ⟨⟨_, leftRead, rfl⟩, ⟨_, rightRead, rfl⟩, rowTexts, countTexts⟩

end Store

end Sql

end QueryOptions
