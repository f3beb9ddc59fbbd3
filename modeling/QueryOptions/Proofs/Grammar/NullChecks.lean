import QueryOptions.Proofs.Grammar.Legible

/-!
Null checks stay null checks. A comparison is never an equality with null: whatever would be read as
null, bare or quoted, is the word `null` in the text already, and a text with that word behind `eq`
or `ne` is taken by a null check. In the other direction, every way to write a null check gives one.
-/

namespace QueryOptions

namespace Literal

def MeansNull : Literal → Prop
  | .null => True
  | .text value => Clause.lowerAscii value.toList = "null".toList
  | .integer _ | .real _ | .boolean _ => False

instance : (literal : Literal) → Decidable literal.MeansNull
  | .null => inferInstanceAs (Decidable True)
  | .text _ => inferInstanceAs (Decidable (_ = _))
  | .integer _ | .real _ | .boolean _ => inferInstanceAs (Decidable False)

theorem quoted_of_unquoted {raw inner : List Char} (found : unquoted? raw = some inner) :
    ∃ quote, (quote = '\'' ∨ quote = '"') ∧ raw = quote :: (inner ++ [quote]) := by
  cases raw with
  | nil => cases found
  | cons opening rest =>
      simp only [unquoted?, Option.ite_none_right_eq_some, Bool.and_eq_true, Bool.or_eq_true,
        decide_eq_true_eq, Option.some.injEq] at found
      obtain ⟨⟨isQuote, closing⟩, rfl⟩ := found
      obtain ⟨before, rfl⟩ := List.getLast?_eq_some_iff.mp closing
      exact ⟨opening, isQuote, by rw [List.dropLast_concat]⟩

theorem numeral_means_no_null {numeral : PlainNumeral} {literal : Literal}
    (read : numeral.value = .ok literal) : ¬literal.MeansNull := by
  unfold PlainNumeral.value at read
  split at read
  · split at read
    · cases read
    · cases read
      exact not_false
  · cases read
    exact not_false

theorem null_word_of_means_null {raw : String} {literal : Literal}
    (read : ofRaw raw = .ok literal) (means : literal.MeansNull) : Clause.NullWord raw.toList := by
  unfold ofRaw at read
  split at read
  · rename_i inner unquoted
    cases read
    obtain ⟨quote, isQuote, parts⟩ := quoted_of_unquoted unquoted
    rw [MeansNull, String.toList_ofList] at means
    rw [parts]
    exact .quoted isQuote means
  · split at read
    · cases read
      cases means
    · split at read
      · cases read
        cases means
      · split at read
        · rename_i isNull
          rw [isNull]
          exact .bare (by decide)
        · split at read
          · exact absurd means (numeral_means_no_null read)
          · cases read
            exact .bare means

end Literal

namespace Clause

variable {text field keyword value : List Char}

theorem Spaced.trim_value (spaced : Spaced text field keyword value)
    (trimmed : Text.trim text = text) : Spaced text field keyword (Text.trim value) := by
  obtain ⟨left, right, leftBlanks, leftGiven, rightBlanks, rightGiven, rfl⟩ := spaced
  obtain ⟨before, behind, beforeBlanks, behindBlanks, parts⟩ := Text.blanks_around_trim value
  have nothing : behind = [] := by
    rw [parts, ← List.append_assoc] at trimmed
    exact Text.no_blanks_behind trimmed behindBlanks
  rw [nothing, List.append_nil] at parts
  refine ⟨left, right ++ before, leftBlanks, leftGiven, ?_, by simp [rightGiven], ?_⟩
  · intro c member
    exact (List.mem_append.mp member).elim (rightBlanks c) (beforeBlanks c)
  · rw [← List.append_assoc, List.append_assoc (field ++ left ++ keyword ++ right), ← parts]

variable {fragment : List Char} {position : Int} {clause : Clause}

/-- A clause that is read as an equality does not compare with the word `null`: if it did, the text
would be derived as a null check too, and null checks come first. -/
theorem no_null_word_in_equality
    (read : Grammar.standard.readClause fragment position = some clause)
    (equality : clause.operator = .comparison .eq ∨ clause.operator = .comparison .ne) :
    ∃ raw, clause.rawValue = some raw ∧ ¬NullWord raw.toList := by
  have trimmed := Text.trim_trim fragment
  obtain ⟨reading, readable, whole⟩ := Grammar.operator_of_read read
  obtain ⟨value?, derived, raw⟩ := derives_of_read readable
  have apart (null : Operator) (isNull : null.form = .nullCheck) (field : List Char)
      (other : Derives (Text.trim fragment) null field none) : False := by
    have first := Grammar.null_check_first isNull (read_of_derives trimmed other) read
    rcases equality with same | same <;> rw [same] at first <;> cases first
  generalize clause.operator = operator at derived equality
  cases derived with
  | isNull => rcases equality with same | same <;> cases same
  | isNotNull => rcases equality with same | same <;> cases same
  | call => rcases equality with same | same <;> cases same
  | @comparison field value kind path spaced isValue =>
      refine ⟨String.ofList (Text.trim value), by rw [whole, raw]; rfl, ?_⟩
      rw [String.toList_ofList]
      intro null
      have caseless := path.weaken fun _ => Identifier.start_is_caseless_start
      have cut := spaced.trim_value trimmed
      rcases equality with same | same <;> cases same
      · exact apart .isNull rfl _ (.isNull caseless cut (by decide) null)
      · exact apart .isNotNull rfl _ (.isNotNull caseless cut (by decide) null)

end Clause

namespace Scope

variable {scope : Scope} {clause : Clause} {index : Int} {predicate : Predicate}

theorem equality_binds_no_null {fragment : List Char} {position : Int}
    (read : Grammar.standard.readClause fragment position = some clause)
    (built : scope.predicate clause index = .ok predicate) :
    (predicate.operator = .comparison .eq ∨ predicate.operator = .comparison .ne →
      ∃ binding, predicate.binding = some binding ∧ ¬binding.literal.MeansNull) ∧
    (predicate.operator.form = .nullCheck → predicate.binding = none) := by
  obtain ⟨same, literal?, bound, binding⟩ := binding_of_predicate built
  rw [same, binding]
  constructor
  · intro equality
    obtain ⟨raw, given, noNull⟩ := Clause.no_null_word_in_equality read equality
    obtain ⟨kind, compares⟩ : ∃ kind, clause.operator = .comparison kind :=
      equality.elim (⟨.eq, ·⟩) (⟨.ne, ·⟩)
    rw [compares, given] at bound
    obtain ⟨literal, found, same⟩ := parts_of_bind bound
    cases same
    exact ⟨_, rfl, fun means => noNull (Literal.null_word_of_means_null found means)⟩
  · intro isNull
    cases known : clause.operator with
    | isNull => rw [known] at bound; cases bound; rfl
    | isNotNull => rw [known] at bound; cases bound; rfl
    | comparison => rw [known] at isNull; cases isNull
    | pattern => rw [known] at isNull; cases isNull

theorem resolve_null_check (isPath : Identifier.isPath clause.field = true)
    (opens : scope.access.filterable.Opens clause.field)
    (isNull : clause.operator.form = .nullCheck) :
    scope.resolveAll [clause] =
      .ok [.onColumn (qualifyField clause.field scope.rootAlias) clause.operator none] := by
  have authorised : scope.authorise clause.field = .ok () :=
    (scope.authorise_iff _).mpr ⟨isPath, opens⟩
  have bound : clause.operator.bind (clause.rawValue.getD "") = .ok none := by
    cases known : clause.operator with
    | isNull => rfl
    | isNotNull => rfl
    | comparison => rw [known] at isNull; cases isNull
    | pattern => rw [known] at isNull; cases isNull
  have built : scope.predicate clause clause.position =
      .ok (.onColumn (qualifyField clause.field scope.rootAlias) clause.operator none) := by
    unfold Scope.predicate
    rw [bound]
    rfl
  have resolved : scope.resolve clause =
      .ok (some (.onColumn (qualifyField clause.field scope.rootAlias) clause.operator none)) := by
    unfold Scope.resolve
    rw [authorised, Option.getD_none, built]
    rfl
  unfold resolveAll
  rw [resolved]
  rfl

end Scope

namespace Filter

variable {strictness : Strictness}

theorem fragment_of_clause {filter : Value} {clauses : List Clause}
    (read : Filter.read .standard strictness filter = .ok clauses) {clause : Clause}
    (member : clause ∈ clauses) :
    ∃ fragment position, Grammar.standard.readClause fragment position = some clause := by
  rw [read_eq_read_fragments] at read
  obtain ⟨_, fragment, _, found⟩ := (mem_read_fragments read clause).mp member
  exact ⟨fragment.toList, _, found⟩

theorem read_null_check {operator : Operator} (isNull : operator.form = .nullCheck)
    {field text : String} {word : List Char} (isPath : Identifier.isPath field = true)
    (spaced : Clause.Spaced text.toList field.toList operator.word.toList word)
    (null : Clause.NullWord word) :
    Filter.read .standard strictness (.text text) = .ok [⟨field, operator, none, 0⟩] := by
  have legible := Clause.null_check_legible isPath operator isNull spaced null
  have each : ∀ piece ∈ [text], ∃ operator field raw?,
      Clause.IsLegible piece operator field raw? := by
    intro piece member
    obtain rfl := List.mem_singleton.mp member
    exact ⟨operator, field, none, legible⟩
  have parts : (Value.text text).parts fragments = [text] := by
    simpa using Clause.parts_of_legible each
  rw [read_eq_read_fragments, parts]
  unfold readFragments
  rw [readFragment, legible.read]
  rfl

/-- A null test never becomes an equality. In whatever filter, an equality is bound to a literal
other than null and the word `null`, and exactly the null checks have no raw value and no binding.
An identifier, `eq` or `ne`, and the word `null` in any letter case and quotes, with any blanks
between them, are read as the null check of the identifier. -/
theorem null_tests_are_null_checks (strictness : Strictness) (scope : Scope) :
    (∀ filter clauses, Filter.read .standard strictness filter = .ok clauses →
      (∀ clause ∈ clauses, clause.rawValue = none ↔ clause.operator.form = .nullCheck) ∧
      ∀ predicates, scope.resolveAll clauses = .ok predicates → ∀ predicate ∈ predicates,
        (predicate.operator = .comparison .eq ∨ predicate.operator = .comparison .ne →
          ∃ binding, predicate.binding = some binding ∧ ¬binding.literal.MeansNull) ∧
        (predicate.operator.form = .nullCheck → predicate.binding = none)) ∧
    ∀ operator keyword, (operator, keyword) ∈ [(Operator.isNull, "eq"), (.isNotNull, "ne")] →
      ∀ (field text : String) (word : List Char), Identifier.isPath field = true →
        Clause.Spaced text.toList field.toList keyword.toList word → Clause.NullWord word →
        Filter.read .standard strictness (.text text) = .ok [⟨field, operator, none, 0⟩] ∧
        (scope.access.filterable.Opens field →
          scope.resolveAll [⟨field, operator, none, 0⟩] =
            .ok [.onColumn (qualifyField field scope.rootAlias) operator none]) := by
  constructor
  · intro filter clauses read
    refine ⟨?_, ?_⟩
    · intro clause member
      obtain ⟨_, _, found⟩ := fragment_of_clause read member
      exact Grammar.raw_value_none_iff found
    · intro predicates resolved predicate member
      obtain ⟨clause, known, _, built⟩ := Scope.clause_of_resolved resolved member
      obtain ⟨_, _, found⟩ := fragment_of_clause read known
      exact Scope.equality_binds_no_null found built
  · intro operator keyword known field text word isPath spaced null
    have isNull : operator.form = .nullCheck ∧ keyword = operator.word := by
      simp only [List.mem_cons, Prod.mk.injEq, List.not_mem_nil, or_false] at known
      rcases known with ⟨rfl, rfl⟩ | ⟨rfl, rfl⟩ <;> exact ⟨rfl, rfl⟩
    obtain ⟨isNull, rfl⟩ := isNull
    exact ⟨read_null_check isNull isPath spaced null,
      fun opens => Scope.resolve_null_check isPath opens isNull⟩

/-- A quoted word with a blank in it is no null, and a tab is as good as a blank. -/
theorem null_tests_are_null_checks_mixed :
    ∃ equality check : Predicate,
      Filter.read .standard .strict (.text "name eq 'Null ' and email  NE\tnUlL") =
        .ok [⟨"name", .comparison .eq, some "'Null '", 0⟩, ⟨"email", .isNotNull, none, 1⟩] ∧
      ({} : Scope).resolveAll
        [⟨"name", .comparison .eq, some "'Null '", 0⟩, ⟨"email", .isNotNull, none, 1⟩] =
          .ok [equality, check] ∧
      (∃ binding, equality.binding = some binding ∧ ¬binding.literal.MeansNull) ∧
      check.binding = none ∧
      Filter.read .standard .strict (.text "a.b\t eq  \"nUlL\"") =
        .ok [⟨"a.b", .isNull, none, 0⟩] ∧
      ({} : Scope).resolveAll [⟨"a.b", .isNull, none, 0⟩] =
        .ok [.onColumn "a.b" .isNull none] := by
  obtain ⟨filters, alone⟩ := null_tests_are_null_checks .strict {}
  have read : Filter.read .standard .strict (.text "name eq 'Null ' and email  NE\tnUlL") =
      .ok [⟨"name", .comparison .eq, some "'Null '", 0⟩, ⟨"email", .isNotNull, none, 1⟩] := by
    decide +kernel
  have resolved : ({} : Scope).resolveAll
      [⟨"name", .comparison .eq, some "'Null '", 0⟩, ⟨"email", .isNotNull, none, 1⟩] =
        .ok [.onColumn "entity.name" (.comparison .eq) (some ⟨"val0", .text "Null "⟩),
          .onColumn "entity.email" .isNotNull none] := by
    decide +kernel
  have each := (filters _ _ read).2 _ resolved
  have spaced : Clause.Spaced "a.b\t eq  \"nUlL\"".toList "a.b".toList "eq".toList
      "\"nUlL\"".toList :=
    ⟨['\t', ' '], [' ', ' '], by decide, by decide, by decide, by decide, rfl⟩
  have null : Clause.NullWord "\"nUlL\"".toList := (Clause.null_word_iff _).mp (by decide)
  obtain ⟨readAlone, resolvedAlone⟩ :=
    alone .isNull "eq" (by decide) "a.b" _ _ (by decide) spaced null
  exact ⟨_, _, read, resolved, (each _ (by simp)).1 (.inl rfl), (each _ (by simp)).2 rfl, readAlone,
    resolvedAlone (.inl rfl)⟩

end Filter

end QueryOptions
