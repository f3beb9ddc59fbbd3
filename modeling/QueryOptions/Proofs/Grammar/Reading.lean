import QueryOptions.Proofs.Grammar.Forms

/-!
Reading decides the grammar. A form reads a trimmed text exactly when the text is derived in it, so
a text has at most one derivation in each form, up to the blanks around its value. The only texts
with derivations in two forms are comparisons with the word `null`, which are read as null checks.
-/

namespace QueryOptions

namespace Operator

/-- The word that tells the operators of one form apart. -/
def word : Operator → String
  | .isNull => "eq"
  | .isNotNull => "ne"
  | .comparison kind => kind.keyword
  | .pattern kind => kind.keyword

theorem same_of_word {left right : Operator} (form : left.form = right.form)
    (word : left.word.toList = right.word.toList) : left = right := by
  have letters : left.word = right.word := String.toList_inj.mp word
  cases left <;> cases right <;> try cases form
  · rfl
  · exact absurd letters (by decide)
  · exact absurd letters (by decide)
  · rfl
  · rename_i left right
    cases left <;> cases right <;> first | rfl | exact absurd letters (by decide)
  · rename_i left right
    cases left <;> cases right <;> first | rfl | exact absurd letters (by decide)

theorem comparison_word_ink (kind : Comparison) :
    kind.keyword.toList ≠ [] ∧ ∀ c ∈ kind.keyword.toList, Text.isBlank c = false :=
  ⟨by cases kind <;> decide, Text.ink_of_all (by cases kind <;> decide)⟩

end Operator

namespace Clause

variable {text field otherField : List Char} {operator : Operator}
  {value? : Option (List Char)}

theorem value_inked {keyword value : List Char} (trimmed : Text.trim text = text)
    (spaced : Spaced text field keyword value) (isValue : IsValue value) :
    ¬Text.Blanks value := by
  intro blanks
  obtain ⟨_, _, _, _, _, _, rfl⟩ := spaced
  exact isValue.given (Text.no_blanks_behind trimmed blanks)

theorem null_parts {keyword word : List Char} {letters : List Char}
    (path : Identifier.Path Identifier.isCaselessStart field)
    (spaced : Spaced text field keyword word) (spelled : lowerAscii keyword = letters)
    (given : letters ≠ []) (alphabetic : letters.all Char.isAlpha = true) (null : NullWord word) :
    threeParts? text = some (field, keyword, word) := by
  have keywordGiven : keyword ≠ [] := by
    rintro rfl
    exact given spelled.symm
  obtain ⟨wordGiven, wordInk⟩ := null.ink
  have inked : ¬Text.Blanks word := by
    obtain ⟨first, others, rfl⟩ := List.exists_cons_of_ne_nil wordGiven
    intro blanks
    have ink := wordInk first List.mem_cons_self
    rw [blanks first List.mem_cons_self] at ink
    cases ink
  rw [three_parts_of_spaced spaced (path.ink fun _ => Identifier.caseless_start_is_word)
    (ink_of_spelled alphabetic spelled) keywordGiven inked,
    (Text.IsTrimmed.of_ink wordGiven wordInk).trim_left]

theorem comparison_parts {value : List Char} {kind : Comparison} (trimmed : Text.trim text = text)
    (path : Identifier.Path Identifier.isStart field)
    (spaced : Spaced text field kind.keyword.toList value) (isValue : IsValue value) :
    threeParts? text = some (field, kind.keyword.toList, Text.trimLeft value) :=
  three_parts_of_spaced spaced (path.ink fun _ => Identifier.start_is_word)
    (Operator.comparison_word_ink kind).2 (Operator.comparison_word_ink kind).1
    (value_inked trimmed spaced isValue)

theorem read_null_of_parts {keyword : String} {written word : List Char}
    (parts : threeParts? text = some (field, written, word))
    (path : Identifier.Path Identifier.isCaselessStart field)
    (spelled : lowerAscii written = keyword.toList) (null : NullWord word) :
    readNullCheck keyword text = some ⟨field, none⟩ := by
  have isPath := (Identifier.is_path_from_iff (by decide) field).mpr path
  unfold readNullCheck
  rw [parts]
  simp [isPath, spelled, (null_word_iff word).mpr null]

theorem read_comparison_of_parts {keyword : String} {value : List Char}
    (parts : threeParts? text = some (field, keyword.toList, Text.trimLeft value))
    (path : Identifier.Path Identifier.isStart field) (oneLine : '\n' ∉ value) :
    readComparison keyword text = some ⟨field, some (Text.trim value)⟩ := by
  have isPath := (Identifier.is_path_from_iff (by decide) field).mpr path
  have restLine : '\n' ∉ Text.trimLeft value := fun member =>
    oneLine ((List.dropWhile_sublist _).mem member)
  unfold readComparison
  rw [parts]
  simp [isPath, restLine, Text.trim_trim_left]

/-- Completeness: a derivation in the form of an operator is found by it. -/
theorem read_of_derives (trimmed : Text.trim text = text)
    (derived : Derives text operator field value?) :
    operator.read text = some ⟨field, value?.map Text.trim⟩ := by
  cases derived with
  | isNull path spaced spelled null =>
      exact read_null_of_parts (null_parts path spaced spelled (by decide) (by decide) null) path
        spelled null
  | isNotNull path spaced spelled null =>
      exact read_null_of_parts (null_parts path spaced spelled (by decide) (by decide) null) path
        spelled null
  | comparison kind path spaced isValue =>
      exact read_comparison_of_parts (comparison_parts trimmed path spaced isValue) path
        isValue.oneLine
  | call kind path called isValue => exact read_call_of_called called path isValue

theorem null_of_read {keyword : String} {reading : Reading}
    (read : readNullCheck keyword text = some reading) :
    ∃ written word, Identifier.Path Identifier.isCaselessStart reading.field ∧
      Spaced text reading.field written word ∧ lowerAscii written = keyword.toList ∧
      NullWord word ∧ reading.rawValue = none := by
  obtain ⟨⟨field, written, word⟩, parts, read⟩ := Option.bind_eq_some_iff.mp read
  dsimp only at read
  split at read
  · rename_i accepted
    cases read
    simp only [Bool.and_eq_true, decide_eq_true_eq] at accepted
    obtain ⟨⟨isPath, spelled⟩, null⟩ := accepted
    exact ⟨written, word, Identifier.path_of_is_path_from isPath, (spaced_of_three_parts parts).1,
      spelled, (null_word_iff word).mp null, rfl⟩
  · cases read

theorem comparison_of_read {keyword : String} {reading : Reading}
    (read : readComparison keyword text = some reading) :
    ∃ value, Identifier.Path Identifier.isStart reading.field ∧
      Spaced text reading.field keyword.toList value ∧ IsValue value ∧
      reading.rawValue = some (Text.trim value) := by
  obtain ⟨⟨field, written, rest⟩, parts, read⟩ := Option.bind_eq_some_iff.mp read
  dsimp only at read
  split at read
  · rename_i accepted
    cases read
    simp only [Bool.and_eq_true, decide_eq_true_eq, Bool.not_eq_true', List.contains_eq_mem,
      decide_eq_false_iff_not] at accepted
    obtain ⟨⟨isPath, rfl⟩, oneLine⟩ := accepted
    obtain ⟨spaced, given⟩ := spaced_of_three_parts parts
    exact ⟨rest, Identifier.path_of_is_path_from isPath, spaced, ⟨given, oneLine⟩, rfl⟩
  · cases read

/-- Soundness: what an operator reads is derived in its form. -/
theorem derives_of_read {reading : Reading} (read : operator.read text = some reading) :
    ∃ value?, Derives text operator reading.field value? ∧
      reading.rawValue = value?.map Text.trim := by
  cases operator with
  | isNull =>
      obtain ⟨_, _, path, spaced, spelled, null, raw⟩ := null_of_read read
      exact ⟨none, .isNull path spaced spelled null, raw⟩
  | isNotNull =>
      obtain ⟨_, _, path, spaced, spelled, null, raw⟩ := null_of_read read
      exact ⟨none, .isNotNull path spaced spelled null, raw⟩
  | comparison kind =>
      obtain ⟨value, path, spaced, isValue, raw⟩ := comparison_of_read read
      exact ⟨some value, .comparison kind path spaced isValue, raw⟩
  | pattern kind =>
      obtain ⟨value, called, path, isValue, raw⟩ := called_of_read_call read
      exact ⟨some value, .call kind path called isValue, raw⟩

theorem null_check_unread {keyword rest : List Char}
    (parts : threeParts? text = some (field, keyword, rest))
    (noNull : lowerAscii keyword = operator.word.toList → ¬NullWord rest)
    (isNull : operator.form = .nullCheck) : operator.read text = none := by
  have unread (written : String) (same : operator.word = written) :
      readNullCheck written text = none := by
    rw [readNullCheck, parts]
    by_cases spelled : lowerAscii keyword = written.toList
    · have no : isNullWord rest = false := by
        rw [← Bool.not_eq_true, null_word_iff]
        exact noNull (same ▸ spelled)
      simp [no]
    · simp [spelled]
  cases operator with
  | isNull => exact unread "eq" rfl
  | isNotNull => exact unread "ne" rfl
  | comparison => cases isNull
  | pattern => cases isNull

theorem word_of_derives (trimmed : Text.trim text = text)
    (derived : Derives text operator field value?) (noCall : operator.form ≠ .call) :
    ∃ keyword rest, threeParts? text = some (field, keyword, rest) ∧
      lowerAscii keyword = operator.word.toList := by
  cases derived with
  | isNull path spaced spelled null =>
      exact ⟨_, _, null_parts path spaced spelled (by decide) (by decide) null, spelled⟩
  | isNotNull path spaced spelled null =>
      exact ⟨_, _, null_parts path spaced spelled (by decide) (by decide) null, spelled⟩
  | comparison kind path spaced isValue =>
      refine ⟨_, _, comparison_parts trimmed path spaced isValue, ?_⟩
      cases kind <;> rfl
  | call => exact absurd rfl noCall

theorem name_of_called {kind : Pattern} {argument : List Char}
    (called : Called text kind.keyword.toList field argument) :
    text.takeWhile Char.isAlpha = kind.keyword.toList ∧
      ∃ others, text.dropWhile (fun c => Text.isWord c || c == '.') = '(' :: others := by
  have letters : ∀ c ∈ kind.keyword.toList, c.isAlpha = true :=
    List.all_eq_true.mp (by cases kind <;> decide)
  have chars : ∀ c ∈ kind.keyword.toList, (Text.isWord c || c == '.') = true := fun c member => by
    rw [Identifier.start_is_word (by rw [Identifier.isStart, letters c member]; rfl)]
    rfl
  obtain ⟨_, _, _, _, _, _, _, _, rfl⟩ := called
  exact ⟨Text.take_run letters (by decide) _, _, Text.drop_run chars (by decide) _⟩

theorem blank_behind_name {blanks : List Char}
    (chars : ∀ c ∈ field, (Text.isWord c || c == '.') = true) (isBlanks : Text.Blanks blanks)
    (given : blanks ≠ []) (rest : List Char) : ∃ blank others, Text.isBlank blank = true ∧
      (field ++ blanks ++ rest).dropWhile (fun c => Text.isWord c || c == '.') =
        blank :: others := by
  obtain ⟨blank, others, rfl⟩ := List.exists_cons_of_ne_nil given
  have isBlank := isBlanks blank List.mem_cons_self
  have stops : (Text.isWord blank || blank == '.') = false := by
    rw [Text.blank_not_word isBlank, Bool.false_or, beq_eq_false_iff_ne]
    rintro rfl
    exact absurd isBlank (by decide)
  refine ⟨blank, others ++ rest, isBlank, ?_⟩
  rw [List.append_assoc, List.cons_append]
  exact Text.drop_run chars stops _

theorem blank_of_spaced {keyword rest : List Char} (spaced : Spaced text field keyword rest)
    (chars : ∀ c ∈ field, (Text.isWord c || c == '.') = true) :
    ∃ blank others, Text.isBlank blank = true ∧
      text.dropWhile (fun c => Text.isWord c || c == '.') = blank :: others := by
  obtain ⟨left, right, leftBlanks, leftGiven, _, _, rfl⟩ := spaced
  have found := blank_behind_name chars leftBlanks leftGiven (keyword ++ (right ++ rest))
  simpa only [List.append_assoc] using found

/-- Behind its first name a text has a blank or a parenthesis, so what is written as a call is derived
in no other form. -/
theorem form_of_called {kind : Pattern} {argument : List Char}
    (called : Called text kind.keyword.toList field argument) {other : Operator}
    {otherField : List Char} {other? : Option (List Char)}
    (derived : Derives text other otherField other?) : other.form = .call := by
  obtain ⟨_, others, opened⟩ := name_of_called called
  have noBlank {blank : Char} {behind : List Char} (isBlank : Text.isBlank blank = true)
      (found : text.dropWhile (fun c => Text.isWord c || c == '.') = blank :: behind) :
      other.form = .call := by
    rw [opened] at found
    cases found
    exact absurd isBlank (by decide)
  cases derived with
  | isNull path spaced =>
      obtain ⟨_, _, isBlank, found⟩ := blank_of_spaced spaced
        (path.chars fun _ => Identifier.caseless_start_is_word)
      exact noBlank isBlank found
  | isNotNull path spaced =>
      obtain ⟨_, _, isBlank, found⟩ := blank_of_spaced spaced
        (path.chars fun _ => Identifier.caseless_start_is_word)
      exact noBlank isBlank found
  | comparison _ path spaced =>
      obtain ⟨_, _, isBlank, found⟩ := blank_of_spaced spaced
        (path.chars fun _ => Identifier.start_is_word)
      exact noBlank isBlank found
  | call => rfl

theorem call_apart {other : Operator} {otherField : List Char} {other? : Option (List Char)}
    (call : Derives text operator field value?) (isCall : operator.form = .call)
    (derived : Derives text other otherField other?) : other.form = .call := by
  cases call with
  | isNull => cases isCall
  | isNotNull => cases isCall
  | comparison => cases isCall
  | call kind path called isValue => exact form_of_called called derived

theorem operator_of_called {kind : Pattern} {argument : List Char}
    (called : Called text kind.keyword.toList field argument)
    (derived : Derives text operator otherField value?) : operator = .pattern kind := by
  have isCall := form_of_called called derived
  cases derived with
  | isNull => cases isCall
  | isNotNull => cases isCall
  | comparison => cases isCall
  | call other path otherCalled isValue =>
      exact Operator.same_of_word rfl
        ((name_of_called otherCalled).1.symm.trans (name_of_called called).1)

theorem same_operator {other : Operator} {otherField : List Char} {other? : Option (List Char)}
    (trimmed : Text.trim text = text) (derived : Derives text operator field value?)
    (again : Derives text other otherField other?) (form : operator.form = other.form) :
    operator = other := by
  refine Operator.same_of_word form ?_
  by_cases isCall : operator.form = .call
  · cases derived with
    | isNull => cases isCall
    | isNotNull => cases isCall
    | comparison => cases isCall
    | call kind path called =>
        cases again with
        | isNull => cases form
        | isNotNull => cases form
        | comparison => cases form
        | call otherKind otherPath otherCalled =>
            exact (name_of_called called).1.symm.trans (name_of_called otherCalled).1
  · obtain ⟨keyword, rest, parts, spelled⟩ := word_of_derives trimmed derived isCall
    obtain ⟨_, _, otherParts, otherSpelled⟩ :=
      word_of_derives trimmed again (form ▸ isCall)
    rw [parts] at otherParts
    cases otherParts
    exact spelled.symm.trans otherSpelled

end Clause

namespace Grammar

open Clause (Derives)

variable {fragment : List Char} {position : Int}

theorem operator_listed (operator : Operator) : operator ∈ standard := by
  rcases operator with _ | _ | kind | kind
  · decide
  · decide
  · cases kind <;> decide
  · cases kind <;> decide

theorem null_check_first {null : Operator} {reading : Clause.Reading} {clause : Clause}
    (isNull : null.form = .nullCheck) (readable : null.read (Text.trim fragment) = some reading)
    (read : standard.readClause fragment position = some clause) :
    clause.operator.form = .nullCheck := by
  unfold readClause standard Operator.all at read
  cases first : Operator.isNull.read (Text.trim fragment) with
  | some found =>
      simp only [List.findSome?_cons, first, Option.map_some, Option.some.injEq] at read
      rw [← read]
      rfl
  | none =>
      cases second : Operator.isNotNull.read (Text.trim fragment) with
      | some found =>
          simp only [List.findSome?_cons, first, second, Option.map_none, Option.map_some,
            Option.some.injEq] at read
          rw [← read]
          rfl
      | none =>
          cases null with
          | isNull => rw [first] at readable; cases readable
          | isNotNull => rw [second] at readable; cases readable
          | comparison => cases isNull
          | pattern => cases isNull

theorem operator_of_read {grammar : Grammar} {clause : Clause}
    (read : grammar.readClause fragment position = some clause) :
    ∃ reading, clause.operator.read (Text.trim fragment) = some reading ∧
      clause = ⟨String.ofList reading.field, clause.operator, reading.rawValue.map String.ofList,
        position⟩ := by
  obtain ⟨operator, _, found⟩ := List.exists_of_findSome?_eq_some read
  obtain ⟨reading, readable, rfl⟩ := Option.map_eq_some_iff.mp found
  exact ⟨reading, readable, rfl⟩

theorem raw_value_none_iff {clause : Clause}
    (read : standard.readClause fragment position = some clause) :
    clause.rawValue = none ↔ clause.operator.form = .nullCheck := by
  obtain ⟨reading, readable, whole⟩ := operator_of_read read
  obtain ⟨value?, derived, raw⟩ := Clause.derives_of_read readable
  have shape : clause.rawValue = (value?.map Text.trim).map String.ofList := by rw [whole, raw]
  rw [shape]
  generalize clause.operator = operator at derived
  cases derived <;> simp [Operator.form]

theorem is_read_iff :
    (∃ clause, standard.readClause fragment position = some clause) ↔
      ∃ operator field value?, Derives (Text.trim fragment) operator field value? := by
  constructor
  · rintro ⟨clause, read⟩
    obtain ⟨reading, readable, _⟩ := operator_of_read read
    obtain ⟨value?, derived, _⟩ := Clause.derives_of_read readable
    exact ⟨clause.operator, reading.field, value?, derived⟩
  · rintro ⟨operator, field, value?, derived⟩
    have readable := Clause.read_of_derives (Text.trim_trim fragment) derived
    refine Option.isSome_iff_exists.mp (List.findSome?_isSome_iff.mpr
      ⟨operator, operator_listed operator, ?_⟩)
    rw [readable]
    rfl

theorem loses_to_null_check {clause : Clause} {operator : Operator} {field : List Char}
    {value? other? : Option (List Char)}
    (read : standard.readClause fragment position = some clause)
    (derived : Derives (Text.trim fragment) clause.operator clause.field.toList value?)
    (again : Derives (Text.trim fragment) operator field other?)
    (form : operator.form ≠ clause.operator.form) :
    clause.operator.form = .nullCheck ∧ operator.form = .comparison := by
  have readable := Clause.read_of_derives (Text.trim_trim fragment) again
  have noCall (isCall : operator.form = .call) : False :=
    form (isCall.trans (Clause.call_apart again isCall derived).symm)
  cases own : clause.operator.form with
  | call => exact absurd ((Clause.call_apart derived own again).trans own.symm) form
  | nullCheck =>
      rw [own] at form
      cases second : operator.form with
      | nullCheck => exact absurd second form
      | comparison => exact ⟨rfl, rfl⟩
      | call => exact (noCall second).elim
  | comparison =>
      rw [own] at form
      cases second : operator.form with
      | nullCheck =>
          have first := null_check_first second readable read
          rw [own] at first
          cases first
      | comparison => exact absurd second form
      | call => exact (noCall second).elim

theorem clause_of_derives {clause : Clause} {operator : Operator} {field : List Char}
    {value? : Option (List Char)} (read : standard.readClause fragment position = some clause)
    (derived : Derives (Text.trim fragment) operator field value?)
    (form : operator.form = clause.operator.form) :
    clause = ⟨String.ofList field, operator,
      value?.map fun value => String.ofList (Text.trim value), position⟩ := by
  obtain ⟨reading, readable, whole⟩ := operator_of_read read
  obtain ⟨_, own, _⟩ := Clause.derives_of_read readable
  have trimmed := Text.trim_trim fragment
  cases Clause.same_operator trimmed derived own form
  have same := readable.symm.trans (Clause.read_of_derives trimmed derived)
  cases same
  rw [whole, Option.map_map]
  rfl

theorem read_clause_of_derives {operator : Operator} {field : List Char}
    {value? : Option (List Char)} (derived : Derives (Text.trim fragment) operator field value?)
    (alone : ∀ null : Operator, null.form = .nullCheck → operator.form = .comparison →
      null.read (Text.trim fragment) = none) :
    standard.readClause fragment position = some ⟨String.ofList field, operator,
      value?.map fun value => String.ofList (Text.trim value), position⟩ := by
  obtain ⟨clause, read⟩ := is_read_iff.mpr ⟨operator, field, value?, derived⟩
  obtain ⟨reading, readable, whole⟩ := operator_of_read read
  obtain ⟨_, own, _⟩ := Clause.derives_of_read readable
  have fieldSame : clause.field.toList = reading.field := by rw [whole, String.toList_ofList]
  rw [← fieldSame] at own
  by_cases form : operator.form = clause.operator.form
  · rw [read, clause_of_derives read derived form]
  · obtain ⟨isNull, isComparison⟩ := loses_to_null_check read own derived form
    rw [alone _ isNull isComparison] at readable
    cases readable

/-- The standard grammar reads a fragment exactly when its trimmed text is derived in some form. The
clause is then that of every derivation in its form, and the only other derivations are comparisons
with `null`, which lose against a null check. -/
theorem reads_exactly_the_derived (fragment : List Char) (position : Int) :
    ((∃ clause, standard.readClause fragment position = some clause) ↔
      ∃ operator field value?, Derives (Text.trim fragment) operator field value?) ∧
    ∀ clause, standard.readClause fragment position = some clause →
      clause.position = position ∧
      (∃ value?, Derives (Text.trim fragment) clause.operator clause.field.toList value?) ∧
      ∀ operator field value?, Derives (Text.trim fragment) operator field value? →
        if operator.form = clause.operator.form then
          operator = clause.operator ∧ String.ofList field = clause.field ∧
            value?.map (fun value => String.ofList (Text.trim value)) = clause.rawValue
        else clause.operator.form = .nullCheck ∧ operator.form = .comparison := by
  refine ⟨is_read_iff, ?_⟩
  intro clause read
  obtain ⟨reading, readable, whole⟩ := operator_of_read read
  obtain ⟨value?, derived, _⟩ := Clause.derives_of_read readable
  have fieldSame : clause.field.toList = reading.field := by rw [whole, String.toList_ofList]
  rw [← fieldSame] at derived
  refine ⟨by rw [whole], ⟨value?, derived⟩, ?_⟩
  intro operator field other? again
  split
  · rename_i form
    rw [clause_of_derives read again form]
    exact ⟨rfl, rfl, rfl⟩
  · rename_i form
    exact loses_to_null_check read derived again form

/-- A quoted `null` could also be the text of a comparison. -/
theorem reads_quoted_null :
    standard.readClause " name eq 'Null' ".toList 3 = some ⟨"name", .isNull, none, 3⟩ ∧
      (∃ value?, Derives "name eq 'Null'".toList .isNull "name".toList value?) ∧
      ∃ value?, Derives "name eq 'Null'".toList (.comparison .eq) "name".toList value? := by
  have read : standard.readClause " name eq 'Null' ".toList 3 =
      some ⟨"name", .isNull, none, 3⟩ := by decide +kernel
  have trimmed : Text.trim " name eq 'Null' ".toList = "name eq 'Null'".toList := by
    decide +kernel
  obtain ⟨_, derived, _⟩ := (reads_exactly_the_derived " name eq 'Null' ".toList 3).2 _ read
  rw [trimmed] at derived
  refine ⟨read, derived, some "'Null'".toList, .comparison .eq ?_ ?_ ⟨by decide, by decide⟩⟩
  · exact Identifier.path_of_is_path_from (by decide)
  · exact ⟨[' '], [' '], by decide, by decide, by decide, by decide, rfl⟩

end Grammar

end QueryOptions
