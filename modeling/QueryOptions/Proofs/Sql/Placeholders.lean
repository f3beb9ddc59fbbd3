import QueryOptions.Proofs.Agreement.Tables
import QueryOptions.Proofs.Grammar.Reading
import QueryOptions.Proofs.Request.Shape
import QueryOptions.Proofs.Sql.Paging
import QueryOptions.Sql.Statement

/-!
Placeholders of a request. Each predicate that binds a literal has one placeholder, which is numbered
by the fragment that the predicate comes from, and null checks have none. The names are therefore
distinct, so no literal takes the place of another one in the parameters of a statement.
-/

namespace QueryOptions

/-- The names of the placeholders in a text: each colon starts one, which ends before the first
character that belongs to no word. -/
def placeholders : List Char → List String
  | [] => []
  | c :: rest =>
      if c = ':' then String.ofList (rest.takeWhile Text.isWord) :: placeholders rest
      else placeholders rest

theorem placeholders_behind {text : List Char} (free : ':' ∉ text) (rest : List Char) :
    placeholders (text ++ rest) = placeholders rest := by
  induction text with
  | nil => rfl
  | cons c text induction =>
      rw [List.mem_cons, not_or] at free
      rw [List.cons_append, placeholders, if_neg (Ne.symm free.1), induction free.2]

theorem placeholders_of_free {text : List Char} (free : ':' ∉ text) : placeholders text = [] := by
  have behind := placeholders_behind free []
  rwa [List.append_nil] at behind

theorem placeholders_of_word {name : String} (word : ∀ c ∈ name.toList, Text.isWord c = true) :
    placeholders (':' :: name.toList) = [name] := by
  have free : ':' ∉ name.toList := fun member => absurd (word ':' member) (by decide)
  have whole : name.toList.takeWhile Text.isWord = name.toList :=
    List.takeWhile_eq_self_iff.mpr word
  rw [placeholders, if_pos rfl, placeholders_of_free free, whole, String.ofList_toList]

theorem digit_is_word {c : Char} (digit : c.isDigit = true) : Text.isWord c = true := by
  have ascii : c.toNat < 128 := by
    simp only [Char.isDigit, UInt32.le_iff_toNat_le, Bool.and_eq_true, decide_eq_true_eq] at digit
    exact Nat.lt_of_le_of_lt digit.2 (by decide)
  rw [Text.isWord, if_pos ascii, Text.isAsciiWord, Char.isAlphanum, digit, Bool.or_true,
    Bool.true_or]

theorem placeholder_word (index : Nat) :
    ∀ c ∈ (placeholder index).toList, Text.isWord c = true := by
  intro c member
  have digits : (toString (index : Int)).toList = Nat.toDigits 10 index := by
    change (Nat.repr index).toList = _
    rw [Nat.repr_eq_ofList_toDigits, String.toList_ofList]
  rw [placeholder, String.toList_append, List.mem_append, digits] at member
  rcases member with letter | digit
  · exact List.all_eq_true.mp (by decide : "val".toList.all Text.isWord = true) c letter
  · have isDigit := Nat.isDigit_of_mem_toDigits (by decide) (by decide) digit
    exact digit_is_word isDigit

theorem path_without_colon {name : String} (isPath : Identifier.isPath name = true) :
    ':' ∉ name.toList := by
  intro member
  have path : Identifier.Path Identifier.isStart name.toList :=
    Identifier.path_of_is_path_from isPath
  exact absurd (path.chars (fun _ => Identifier.start_is_word) ':' member) (by decide)

theorem qualified_without_colon {name rootAlias : String} (isPath : Identifier.isPath name = true)
    (aliasPath : Identifier.isPath rootAlias = true) :
    ':' ∉ (qualifyField name rootAlias).toList := by
  unfold qualifyField
  split
  · exact path_without_colon isPath
  · simp [path_without_colon isPath, path_without_colon aliasPath]

theorem Predicate.placeholders_on_column {column : String} (free : ':' ∉ column.toList)
    (operator : Operator) :
    placeholders (onColumn column operator none).template.toList = [] ∧
      ∀ (index : Nat) (literal : Literal),
        placeholders (onColumn column operator (some ⟨placeholder index, literal⟩)).template.toList =
          [placeholder index] := by
  have symbolFree : ':' ∉ operator.symbol.toList := by
    rcases operator with _ | _ | kind | kind
    · decide
    · decide
    · cases kind <;> decide
    · cases kind <;> decide
  have opening : ':' ∉ column.toList ++ ' ' :: operator.symbol.toList := by
    simp [free, symbolFree]
  constructor
  · have parts : (onColumn column operator none).template.toList =
        column.toList ++ ' ' :: operator.symbol.toList := by
      simp [onColumn]
    rw [parts, placeholders_of_free opening]
  · intro index literal
    have parts :
        (onColumn column operator (some ⟨placeholder index, literal⟩)).template.toList =
          (column.toList ++ ' ' :: operator.symbol.toList) ++
            ([' '] ++ ':' :: (placeholder index).toList) := by
      simp [onColumn]
    rw [parts, placeholders_behind opening, placeholders_behind (by decide),
      placeholders_of_word (placeholder_word index)]

/-- The literal that a clause stands for: its raw value, as a pattern if the operator is one. -/
inductive Clause.Binds : Clause → Literal → Prop where
  | comparison {clause : Clause} {kind : Comparison} {raw : String} {literal : Literal}
      (compares : clause.operator = .comparison kind) (given : clause.rawValue = some raw)
      (read : Literal.ofRaw raw = .ok literal) : Binds clause literal
  | pattern {clause : Clause} {kind : Pattern} {raw : String} {literal : Literal}
      (resembles : clause.operator = .pattern kind) (given : clause.rawValue = some raw)
      (read : Literal.ofRaw raw = .ok literal) :
      Binds clause (.text (kind.wrap literal.asText))

theorem Clause.Binds.unique {clause : Clause} {first second : Literal} (binds : clause.Binds first)
    (again : clause.Binds second) : first = second := by
  cases binds with
  | comparison compares given read =>
      cases again with
      | comparison _ givenAgain readAgain =>
          rw [given] at givenAgain
          cases givenAgain
          exact Except.ok.inj (read.symm.trans readAgain)
      | pattern resembles => rw [compares] at resembles; cases resembles
  | pattern resembles given read =>
      cases again with
      | comparison compares => rw [resembles] at compares; cases compares
      | pattern resemblesAgain givenAgain readAgain =>
          rw [resembles] at resemblesAgain
          rw [given] at givenAgain
          cases resemblesAgain
          cases givenAgain
          rw [Except.ok.inj (read.symm.trans readAgain)]

theorem Clause.Binds.not_null_check {clause : Clause} {literal : Literal}
    (binds : clause.Binds literal) :
    ¬(clause.operator = .isNull ∨ clause.operator = .isNotNull) := by
  cases binds with
  | comparison compares => simp [compares]
  | pattern resembles => simp [resembles]

/-- The predicate that the fragment at an index contributes: with one placeholder, numbered by the
index, for the literal of its clause, or without any for a null check. -/
inductive Scope.Contributes (scope : Scope) (index : Int) (fragment : String)
    (predicate : Predicate) : Prop where
  | value {clause : Clause} {literal : Literal}
      (admitted : scope.AdmitsClause index fragment clause) (binds : clause.Binds literal)
      (operator : predicate.operator = clause.operator)
      (bound : predicate.binding = some ⟨"val" ++ toString index, literal⟩)
      (named : placeholders predicate.template.toList = ["val" ++ toString index])
  | nullCheck {clause : Clause} (admitted : scope.AdmitsClause index fragment clause)
      (isNull : clause.operator = .isNull ∨ clause.operator = .isNotNull)
      (operator : predicate.operator = clause.operator)
      (unbound : predicate.binding = none) (unnamed : placeholders predicate.template.toList = [])

theorem Grammar.raw_value_of_read {fragment : List Char} {position : Int} {clause : Clause}
    (read : standard.readClause fragment position = some clause)
    (binds : clause.operator.bindsLiteral = true) : ∃ raw, clause.rawValue = some raw := by
  refine Option.ne_none_iff_exists'.mp fun missing => ?_
  have isNull := (raw_value_none_iff read).mp missing
  cases known : clause.operator with
  | isNull => rw [known] at binds; cases binds
  | isNotNull => rw [known] at binds; cases binds
  | comparison => rw [known] at isNull; cases isNull
  | pattern => rw [known] at isNull; cases isNull

theorem Grammar.bound_of_read {fragment : List Char} {position : Int} {clause : Clause}
    (read : standard.readClause fragment position = some clause) {literal? : Option Literal}
    (bound : clause.operator.bind (clause.rawValue.getD "") = .ok literal?) :
    (clause.operator = .isNull ∨ clause.operator = .isNotNull) ∧ literal? = none ∨
      ∃ literal, clause.Binds literal ∧ literal? = some literal := by
  cases known : clause.operator with
  | isNull =>
      rw [known] at bound
      cases bound
      exact .inl ⟨.inl rfl, rfl⟩
  | isNotNull =>
      rw [known] at bound
      cases bound
      exact .inl ⟨.inr rfl, rfl⟩
  | comparison kind =>
      obtain ⟨raw, given⟩ := raw_value_of_read read (by rw [known]; rfl)
      rw [known, given] at bound
      obtain ⟨literal, found, same⟩ := parts_of_bind bound
      cases same
      exact .inr ⟨literal, .comparison known given found, rfl⟩
  | pattern kind =>
      obtain ⟨raw, given⟩ := raw_value_of_read read (by rw [known]; rfl)
      rw [known, given] at bound
      obtain ⟨literal, found, same⟩ := parts_of_bind bound
      cases same
      exact .inr ⟨_, .pattern known given found, rfl⟩

theorem Scope.contributes_of_admits {scope : Scope}
    (aliasPath : Identifier.isPath scope.rootAlias = true) (index : Nat) {fragment : String}
    {predicate : Predicate} (admits : scope.Admits index fragment predicate) :
    scope.Contributes index fragment predicate := by
  obtain ⟨clause, admitted, built, _⟩ := admits
  obtain ⟨bare, named⟩ := Predicate.placeholders_on_column
    (qualified_without_colon admitted.2.1 aliasPath) clause.operator
  obtain ⟨literal?, bound, same⟩ := parts_of_bind built
  cases same
  rcases Grammar.bound_of_read admitted.1 bound with ⟨isNull, rfl⟩ | ⟨literal, binds, rfl⟩
  · exact .nullCheck admitted isNull rfl rfl bare
  · exact .value admitted binds rfl rfl (named index literal)

theorem Request.picks_of_predicates {request : Request}
    (aliasPath : Identifier.isPath request.settings.rootAlias = true)
    {predicates : List Predicate} (readFilter : request.readPredicates = .ok predicates) :
    Picks (fun index fragment => ∃ clause, request.scope.AdmitsClause index fragment clause)
      request.scope.Contributes 0
      ((request.option request.settings.filterKey).parts Filter.fragments) predicates := by
  obtain ⟨_, read, resolved⟩ := (request.read_predicates_iff predicates).mp readFilter
  rw [Filter.read_eq_read_fragments] at read
  have picks := request.scope.picks_of_read read resolved
  exact picks.imp (Int.le_refl 0) fun index _ _ => Scope.contributes_of_admits aliasPath index

namespace Scope

variable {scope : Scope} {fragments : List String} {predicates : List Predicate}

theorem contributed_names_apart {i j : Int} {left right : String} {first second : Predicate}
    (before : i < j) (contributes : scope.Contributes i left first)
    (later : scope.Contributes j right second) :
    ∀ name ∈ placeholders first.template.toList,
      ∀ other ∈ placeholders second.template.toList, name ≠ other := by
  cases contributes with
  | nullCheck _ _ _ _ unnamed => simp [unnamed]
  | value _ _ _ _ named =>
      cases later with
      | nullCheck _ _ _ _ unnamed => simp [unnamed]
      | value _ _ _ _ otherNamed =>
          rw [named, otherNamed]
          intro name known other otherKnown same
          rw [List.mem_singleton.mp known, List.mem_singleton.mp otherKnown] at same
          exact absurd (placeholder_injective same) (Int.ne_of_lt before)

section Picked

variable {start : Int}
  (picks : Picks (fun index fragment => ∃ clause, scope.AdmitsClause index fragment clause)
    scope.Contributes start fragments predicates)

include picks

theorem bound_names :
    (predicates.filterMap (·.binding)).map (·.name) =
      predicates.flatMap fun predicate => placeholders predicate.template.toList := by
  induction picks with
  | done => rfl
  | taken _ contributes _ induction =>
      cases contributes with
      | value _ _ _ bound named => simp [bound, named, induction]
      | nullCheck _ _ _ unbound unnamed => simp [unbound, unnamed, induction]
  | dropped _ _ induction => exact induction

theorem placeholders_nodup :
    (predicates.flatMap fun predicate => placeholders predicate.template.toList).Nodup := by
  refine List.nodup_flatMap.mpr ⟨?_, ?_⟩
  · intro predicate member
    obtain ⟨_, _, _, contributes⟩ := picks.item_of_part member
    cases contributes with
    | value _ _ _ _ named => simp [named]
    | nullCheck _ _ _ _ unnamed => simp [unnamed]
  · refine picks.pairwise fun i j left right first second before contributes later => ?_
    intro name known other
    exact contributed_names_apart before contributes later name known name other rfl

theorem bound_names_numbered :
    ∀ name ∈ predicates.flatMap fun predicate => placeholders predicate.template.toList,
      name.toList.head? = some 'v' := by
  intro name member
  obtain ⟨predicate, known, named⟩ := List.mem_flatMap.mp member
  obtain ⟨_, _, _, contributes⟩ := picks.item_of_part known
  cases contributes with
  | value _ _ _ _ numbered =>
      rw [numbered, List.mem_singleton] at named
      rw [named, String.toList_append]
      rfl
  | nullCheck _ _ _ _ unnamed =>
      rw [unnamed] at named
      cases named

end Picked

theorem literal_is_bound
    (picks : Picks (fun index fragment => ∃ clause, scope.AdmitsClause index fragment clause)
      scope.Contributes 0 fragments predicates) {index : Nat} {fragment : String}
    (known : fragments[index]? = some fragment) {clause : Clause} {literal : Literal}
    (admitted : scope.AdmitsClause index fragment clause) (binds : clause.Binds literal) :
    ⟨"val" ++ toString index, literal⟩ ∈ predicates.filterMap (·.binding) := by
  obtain ⟨predicate, member, contributes⟩ := picks.part_of_item known
    ⟨clause, by rwa [Int.zero_add]⟩
  rw [Int.zero_add] at contributes
  refine List.mem_filterMap.mpr ⟨predicate, member, ?_⟩
  cases contributes with
  | @value other _ otherAdmitted otherBinds _ bound =>
      have same := otherAdmitted.1.symm.trans admitted.1
      cases same
      rw [bound, otherBinds.unique binds]
      rfl
  | @nullCheck other otherAdmitted isNull =>
      have same := otherAdmitted.1.symm.trans admitted.1
      cases same
      exact absurd isNull binds.not_null_check

end Scope

theorem lookup_of_nodup {α β : Type} [BEq α] [LawfulBEq α] {pairs : List (α × β)}
    (distinct : (pairs.map Prod.fst).Nodup) {key : α} {value : β}
    (member : (key, value) ∈ pairs) : pairs.lookup key = some value := by
  obtain ⟨before, behind, rfl⟩ := List.append_of_mem member
  rw [List.map_append, List.nodup_append] at distinct
  refine List.lookup_eq_some_iff.mpr ⟨before, behind, rfl, ?_⟩
  intro pair earlier
  have apart := distinct.2.2 pair.1 (List.mem_map_of_mem earlier) key (by simp)
  exact bne_iff_ne.mpr apart.symm

namespace Sql

/-- The values of the bounds of a page under their names; a bound of zero has none. -/
def pageParameters (page : Page) : List (String × Value) :=
  ((if 0 < page.limit then [page.limit] else []) ++
    (if 0 < page.skip then [page.skip] else [])).zipIdx.map fun (bound, index) =>
      ("param_" ++ toString (index + 1), .integer bound)

theorem page_parameters_apart (page : Page) :
    ((pageParameters page).map Prod.fst).Nodup ∧
      ∀ name ∈ (pageParameters page).map Prod.fst, name.toList.head? = some 'p' := by
  unfold pageParameters
  by_cases limited : 0 < page.limit <;> by_cases skipped : 0 < page.skip
  all_goals simp [limited, skipped]

theorem names_nodup_with_bounds {names : List String} (distinct : names.Nodup)
    (numbered : ∀ name ∈ names, name.toList.head? = some 'v') (page : Page) :
    (names ++ (pageParameters page).map Prod.fst).Nodup := by
  obtain ⟨apart, opens⟩ := page_parameters_apart page
  refine List.nodup_append.mpr ⟨distinct, apart, ?_⟩
  rintro name known _ bound rfl
  have both := (numbered name known).symm.trans (opens name bound)
  exact absurd both (by decide)

theorem bound_parameters_requested (entity : Entity) (rootAlias qualifier : String)
    (predicates : List Predicate) (sorts : List SortKey) (expansions : List String) (page : Page) :
    (Selection.requested entity rootAlias qualifier predicates sorts expansions
      page).boundParameters = pageParameters page := by
  unfold Selection.boundParameters Selection.bounds Selection.requested pageParameters
  by_cases limited : 0 < page.limit <;> by_cases skipped : 0 < page.skip
  all_goals simp [limited, skipped]

namespace Store

/-- No literal is lost or takes the place of another one: each admitted fragment contributes one
predicate, the placeholders of the predicates are distinct, and both statements keep the literal of
each fragment under the fragment's number. Apart from these, the rows have the bounds of the page as
parameters and the count has none. -/
theorem bound_values_kept (database : Database) (entity : Entity) (rootAlias : String)
    (access : Access) (settings : Settings) (options : List (String × Value))
    (aliasPath : Identifier.isPath settings.rootAlias = true) {page : Page}
    (returned : (ask database entity rootAlias access settings options).apply.2 = .ok page) :
    let session := ask database entity rootAlias access settings options
    let request := session.request
    let selection := session.apply.1.backend.selection
    let fragments := (request.option settings.filterKey).parts Filter.fragments
    let values := (selection.predicates.filterMap (·.binding)).map fun binding =>
      (binding.name, binding.literal.value)
    Picks (fun index fragment => ∃ clause, request.scope.AdmitsClause index fragment clause)
      request.scope.Contributes 0 fragments selection.predicates ∧
    (selection.predicates.flatMap fun predicate => placeholders predicate.template.toList).Nodup ∧
    selection.rowsStatement.parameters = values ++ pageParameters page ∧
    selection.countStatement.parameters = values ∧
    ∀ statement ∈ [selection.rowsStatement, selection.countStatement],
      (statement.parameters.map Prod.fst).Nodup ∧
      ∀ (index : Nat) fragment clause literal, fragments[index]? = some fragment →
        request.scope.AdmitsClause index fragment clause → clause.Binds literal →
          statement.parameters.lookup ("val" ++ toString index) = some literal.value := by
  intro session request selection fragments values
  obtain ⟨predicates, sorts, expansions, readFilter, readSort, readExpand, rfl⟩ :=
    Request.apply_returns _ rfl returned
  obtain ⟨_, reached⟩ := ask_applied readFilter readSort readExpand
  have picks := Request.picks_of_predicates aliasPath readFilter
  have ofRequest : selection = Selection.requested entity rootAlias settings.rootAlias predicates
      sorts expansions (Page.ofSettings options settings) := congrArg Store.selection reached
  have samePredicates : selection.predicates = predicates := by rw [ofRequest]; rfl
  rw [← samePredicates] at picks
  have distinct := Scope.placeholders_nodup picks
  have names := Scope.bound_names picks
  have bindings := Selection.bindings_of_distinct (names ▸ distinct)
  have literals : selection.literalParameters = values := by
    rw [Selection.literalParameters, bindings]
  have bounds : selection.boundParameters = pageParameters (Page.ofSettings options settings) := by
    rw [ofRequest]
    exact bound_parameters_requested _ _ _ _ _ _ _
  have rows : selection.rowsStatement.parameters =
      values ++ pageParameters (Page.ofSettings options settings) := by
    rw [← literals, ← bounds]
    rfl
  have valueNames : values.map Prod.fst =
      selection.predicates.flatMap fun predicate => placeholders predicate.template.toList := by
    rw [← names, List.map_map]
    rfl
  have kept (more : List (String × Value)) (apart : ((values ++ more).map Prod.fst).Nodup) :
      ∀ (index : Nat) fragment clause literal, fragments[index]? = some fragment →
        request.scope.AdmitsClause index fragment clause → clause.Binds literal →
          (values ++ more).lookup ("val" ++ toString index) = some literal.value := by
    intro index fragment clause literal known admitted binds
    have bound := Scope.literal_is_bound picks known admitted binds
    exact lookup_of_nodup apart (List.mem_append_left more (List.mem_map_of_mem bound))
  refine ⟨picks, distinct, rows, literals, ?_⟩
  intro statement member
  rcases List.mem_cons.mp member with rfl | member
  · have apart := names_nodup_with_bounds distinct (Scope.bound_names_numbered picks)
      (Page.ofSettings options settings)
    rw [← valueNames, ← List.map_append] at apart
    rw [rows]
    exact ⟨apart, kept _ apart⟩
  · have apart : ((values ++ []).map Prod.fst).Nodup := by rwa [List.append_nil, valueNames]
    have counted : statement.parameters = values ++ [] := by
      rw [List.mem_singleton.mp member, List.append_nil]
      exact literals
    rw [counted]
    exact ⟨apart, kept [] apart⟩

/-- A filter with a fragment that is dropped and a null check between two values. The collection
is joined, so the page is cut over the keys. -/
def gapped : Session Store :=
  ask Sample.database .user "entity" {} {} [
    ("$filter", .text "age gt 18 and nothing and email eq null and contains(name,'o')"),
    ("$expand", .text "posts"), ("$top", .text "5")]

theorem gapped_bound_values_kept :
    gapped.apply.2 = .ok ⟨0, 5⟩ ∧ gapped.apply.1.backend.selection.pagesKeys = true ∧
      (gapped.apply.1.backend.selection.rowsStatement.parameters.map Prod.fst).Nodup ∧
      gapped.apply.1.backend.selection.rowsStatement.parameters.lookup "val0" =
        some (.integer 18) ∧
      gapped.apply.1.backend.selection.rowsStatement.parameters.lookup "val3" =
        some (.text "%o%") := by
  have returned : gapped.apply.2 = .ok ⟨0, 5⟩ := ok_of_to_option (by decide +kernel)
  obtain ⟨_, _, _, _, kept⟩ :=
    bound_values_kept Sample.database .user "entity" {} {} _ (by decide) returned
  obtain ⟨apart, values⟩ := kept _ List.mem_cons_self
  refine ⟨returned, by decide +kernel, apart, ?_, ?_⟩
  · refine values 0 "age gt 18" ⟨"age", .comparison .gt, some "18", 0⟩ (.integer 18)
      (by decide +kernel) ⟨by decide +kernel, by decide, .inl rfl⟩ (.comparison rfl rfl ?_)
    exact ok_of_to_option (by decide +kernel)
  · have binds : Clause.Binds ⟨"name", .pattern .contains, some "'o'", 3⟩
        (.text (Pattern.contains.wrap (Literal.text "o").asText)) :=
      .pattern rfl rfl (ok_of_to_option (by decide +kernel))
    have wrapped : Pattern.contains.wrap (Literal.text "o").asText = "%o%" := by decide
    rw [wrapped] at binds
    exact values 3 "contains(name,'o')" _ _ (by decide +kernel)
      ⟨by decide +kernel, by decide, .inl rfl⟩ binds

end Store

end Sql

end QueryOptions
