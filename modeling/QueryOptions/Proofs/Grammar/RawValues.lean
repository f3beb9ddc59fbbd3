import QueryOptions.Proofs.Grammar.Reading
import QueryOptions.Proofs.Request.Reading

/-!
Raw values of clauses. A comparison is never read without a value: a trimmed fragment does not end
in blanks, so there is ink behind the keyword. A call takes any one line for its argument, and an
argument of blanks is trimmed to nothing. So the only clauses with an empty value are calls with
blanks before the closing parenthesis, and where nothing or only line breaks stand there, the call
is not read at all.
-/

namespace QueryOptions

namespace Clause

def CalledBlankly (text name field blanks : List Char) : Prop :=
  Text.Blanks blanks ∧ ∃ opening before, Text.Blanks opening ∧ Text.Blanks before ∧
    text = name ++ '(' :: (opening ++ field ++ before ++ ',' :: (blanks ++ [')']))

section Calls

variable {text field blanks : List Char}

theorem CalledBlankly.called {name : List Char} (blankly : CalledBlankly text name field blanks) :
    Called text name field [] := by
  obtain ⟨isBlanks, opening, before, openingBlanks, beforeBlanks, parts⟩ := blankly
  exact ⟨opening, before, blanks, [], openingBlanks, beforeBlanks, isBlanks, by simp [Text.Blanks],
    by simpa using parts⟩

theorem Called.blankly {name argument : List Char} (called : Called text name field argument)
    (blank : Text.Blanks argument) :
    ∃ behind closing, CalledBlankly text name field (behind ++ argument ++ closing) := by
  obtain ⟨opening, before, behind, closing, openingBlanks, beforeBlanks, behindBlanks,
    closingBlanks, parts⟩ := called
  refine ⟨behind, closing, ?_, opening, before, openingBlanks, beforeBlanks, parts⟩
  simp only [Text.Blanks, List.mem_append] at *
  rintro c ((member | member) | member)
  · exact behindBlanks c member
  · exact blank c member
  · exact closingBlanks c member

theorem read_argument_of_blanks (isBlanks : Text.Blanks blanks) :
    readArgument blanks = if blanks.all (· = '\n') then none else some [] := by
  unfold readArgument
  rw [isBlanks.trim_eq_nil]
  simp

theorem read_blank_call {kind : Pattern}
    (blankly : CalledBlankly text kind.keyword.toList field blanks)
    (path : Identifier.Path Identifier.isStart field) :
    (Operator.pattern kind).read text =
      if blanks.all (· = '\n') then none else some ⟨field, some []⟩ := by
  obtain ⟨isBlanks, opening, before, openingBlanks, beforeBlanks, parts⟩ := blankly
  have read := read_call_of_parts openingBlanks beforeBlanks path parts
  rw [read_argument_of_blanks isBlanks] at read
  refine read.trans ?_
  split <;> rfl

/-- The value of a trimmed text has ink at both ends, unless the text is a call with blanks for its
argument. -/
theorem value_of_derives {operator : Operator} {value? : Option (List Char)}
    (trimmed : Text.trim text = text) (derived : Derives text operator field value?)
    (notNull : operator.form ≠ .nullCheck) : ∃ value, value? = some value ∧
      (Text.IsTrimmed (Text.trim value) ∨ Text.trim value = [] ∧ ∃ kind blanks,
        operator = .pattern kind ∧ CalledBlankly text kind.keyword.toList field blanks ∧
          ∃ c ∈ blanks, c ≠ '\n') := by
  cases derived with
  | isNull => exact absurd rfl notNull
  | isNotNull => exact absurd rfl notNull
  | @comparison _ value kind path spaced isValue =>
      exact ⟨value, rfl, .inl (Text.trimmed_of_inked (value_inked trimmed spaced isValue))⟩
  | @call _ value kind path called isValue =>
      refine ⟨value, rfl, ?_⟩
      by_cases blank : Text.Blanks value
      · obtain ⟨behind, closing, blankly⟩ := called.blankly blank
        obtain ⟨c, member⟩ := List.exists_mem_of_ne_nil value isValue.given
        refine .inr ⟨blank.trim_eq_nil, kind, _, rfl, blankly, c, by simp [member], ?_⟩
        rintro rfl
        exact isValue.oneLine member
      · exact .inl (Text.trimmed_of_inked blank)

variable {keyword : List Char} (path : Identifier.Path Identifier.isStart field)
  (isBlanks : Text.Blanks blanks) (given : blanks ≠ [])

include path isBlanks given

theorem three_parts_of_two_words (keywordTrimmed : Text.IsTrimmed keyword)
    (keywordInk : ∀ c ∈ keyword, Text.isBlank c = false) :
    threeParts? (field ++ blanks ++ keyword) = none := by
  have inside : ∀ c ∈ keyword, (!Text.isBlank c) = true := fun c member => by
    rw [keywordInk c member]
    rfl
  have nothing : keyword.dropWhile (fun c => !Text.isBlank c) = [] :=
    List.dropWhile_eq_nil_iff.mpr inside
  obtain ⟨_, dropped⟩ :=
    ink_then_blanks (path.ink fun _ => Identifier.start_is_word) isBlanks given keyword
  unfold threeParts?
  rw [List.append_assoc]
  simp only [dropped, keywordTrimmed.trim_left, nothing]
  rfl

theorem two_words_underived (keywordTrimmed : Text.IsTrimmed keyword)
    (keywordInk : ∀ c ∈ keyword, Text.isBlank c = false) {operator : Operator}
    {other : List Char} {value? : Option (List Char)} :
    ¬Derives (field ++ blanks ++ keyword) operator other value? := by
  intro derived
  by_cases isCall : operator.form = .call
  · cases derived with
    | isNull => cases isCall
    | isNotNull => cases isCall
    | comparison => cases isCall
    | call kind otherPath called =>
        obtain ⟨_, _, opened⟩ := name_of_called called
        obtain ⟨_, _, isBlank, found⟩ := blank_behind_name
          (path.chars fun _ => Identifier.start_is_word) isBlanks given keyword
        rw [opened] at found
        cases found
        exact absurd isBlank (by decide)
  · have trimmed : Text.trim (field ++ blanks ++ keyword) = field ++ blanks ++ keyword := by
      obtain ⟨first, others, opening, ink⟩ :=
        (Text.IsTrimmed.of_ink path.ne_nil (path.ink fun _ => Identifier.start_is_word)).starts
      obtain ⟨before, last, closing, lastInk⟩ := keywordTrimmed.ends
      exact Text.IsTrimmed.trim ⟨⟨first, others ++ blanks ++ keyword, by simp [opening], ink⟩,
        ⟨field ++ blanks ++ before, last, by simp [closing], lastInk⟩⟩
    obtain ⟨_, _, parts, _⟩ := word_of_derives trimmed derived isCall
    rw [three_parts_of_two_words path isBlanks given keywordTrimmed keywordInk] at parts
    cases parts

end Calls

end Clause

namespace Grammar

open Clause (CalledBlankly Called)

variable {fragment : List Char}

theorem read_clause_of_called {kind : Pattern} {field argument : List Char}
    (called : Called (Text.trim fragment) kind.keyword.toList field argument) (position : Int) :
    standard.readClause fragment position =
      ((Operator.pattern kind).read (Text.trim fragment)).map fun reading =>
        ⟨String.ofList reading.field, .pattern kind, reading.rawValue.map String.ofList,
          position⟩ := by
  cases read : standard.readClause fragment position with
  | some clause =>
      obtain ⟨reading, readable, whole⟩ := operator_of_read read
      obtain ⟨_, derived, _⟩ := Clause.derives_of_read readable
      have same := Clause.operator_of_called called derived
      rw [same] at readable whole
      rw [readable, whole]
      rfl
  | none =>
      have unread := List.findSome?_eq_none_iff.mp read _ (operator_listed (.pattern kind))
      exact unread.symm

end Grammar

open Clause (CalledBlankly) in
/-- Whatever the grammar and whether strictly or not, the value of a clause that is no null check
has ink at both ends, unless the clause is a call with blanks for its argument. A call with such an
argument has an empty value, or it is refused if the blanks are line breaks only; and a path with a
keyword and nothing behind it is refused. -/
theorem Filter.value_missing_only_in_blank_calls (strictness : Strictness) (fragment : String)
    (position : Int) :
    let trimmed := Text.trim fragment.toList
    let refused : Except Rejection (Option Clause) :=
      strictness.refuse (.unrecognisedClause (String.ofList trimmed))
    (∀ grammar clause,
      strictness.settle (readFragment grammar fragment position) = .ok (some clause) →
      clause.operator.form ≠ .nullCheck → ∃ raw, clause.rawValue = some raw ∧
        (Text.IsTrimmed raw.toList ∨ raw = "" ∧ ∃ kind blanks, clause.operator = .pattern kind ∧
          CalledBlankly trimmed kind.keyword.toList clause.field.toList blanks ∧
          ∃ c ∈ blanks, c ≠ '\n')) ∧
    (∀ kind field blanks, Identifier.isPath field = true →
      CalledBlankly trimmed kind.keyword.toList field.toList blanks →
      strictness.settle (readFragment .standard fragment position) =
        if blanks.all (· = '\n') then refused
        else .ok (some ⟨field, .pattern kind, some "", position⟩)) ∧
    ∀ (kind : Comparison) field blanks, Identifier.isPath field = true → Text.Blanks blanks →
      blanks ≠ [] → trimmed = field.toList ++ blanks ++ kind.keyword.toList →
      strictness.settle (readFragment .standard fragment position) = refused := by
  intro trimmed refused
  have unread (none : Grammar.standard.readClause fragment.toList position = none) :
      strictness.settle (readFragment .standard fragment position) = refused := by
    rw [readFragment, none]
    rfl
  refine ⟨?_, ?_, ?_⟩
  · intro grammar clause settled notNull
    obtain ⟨reading, readable, whole⟩ := Grammar.operator_of_read (clause_of_settled settled)
    obtain ⟨_, derived, raw⟩ := Clause.derives_of_read readable
    obtain ⟨value, rfl, shape⟩ :=
      Clause.value_of_derives (Text.trim_trim fragment.toList) derived notNull
    have field : clause.field.toList = reading.field := by rw [whole, String.toList_ofList]
    refine ⟨String.ofList (Text.trim value), by rw [whole, raw]; rfl, ?_⟩
    rw [String.toList_ofList, field]
    exact shape.imp_right (And.imp_left (congrArg String.ofList))
  · intro kind field blanks isPath blankly
    have read := Grammar.read_clause_of_called blankly.called position
    rw [Clause.read_blank_call blankly (Identifier.path_of_is_path_from isPath)] at read
    split
    · rename_i breaks
      rw [if_pos breaks] at read
      exact unread read
    · rename_i proper
      rw [if_neg proper] at read
      rw [readFragment, read, Option.map_some, String.ofList_toList]
      rfl
  · intro kind field blanks isPath isBlanks given parts
    obtain ⟨keywordGiven, keywordInk⟩ := Operator.comparison_word_ink kind
    refine unread (Option.eq_none_iff_forall_ne_some.mpr fun clause read => ?_)
    obtain ⟨operator, other, value?, derived⟩ := Grammar.is_read_iff.mp ⟨clause, read⟩
    have path : Identifier.Path Identifier.isStart field.toList :=
      Identifier.path_of_is_path_from isPath
    have whole : Text.trim fragment.toList = field.toList ++ blanks ++ kind.keyword.toList := parts
    rw [whole] at derived
    exact Clause.two_words_underived path isBlanks given
      (.of_ink keywordGiven keywordInk) keywordInk derived

open Clause (CalledBlankly) in
/-- A tab and a line break make an empty value, a line break alone makes none; and a comparison
stops behind its keyword. -/
theorem Filter.value_missing_in_tab_call :
    CalledBlankly "contains( a.b ,\t\n)".toList "contains".toList "a.b".toList ['\t', '\n'] ∧
      Strictness.strict.settle (readFragment .standard "contains( a.b ,\t\n)" 3) =
        .ok (some ⟨"a.b", .pattern .contains, some "", 3⟩) ∧
      Strictness.strict.settle (readFragment .standard "contains(a,\n)" 0) =
        .error (.unrecognisedClause "contains(a,\n)") ∧
      Strictness.lenient.settle (readFragment .standard " age  ge " 0) = .ok none := by
  have blankly : CalledBlankly "contains( a.b ,\t\n)".toList "contains".toList "a.b".toList
      ['\t', '\n'] :=
    ⟨by decide, [' '], [' '], by decide, by decide, rfl⟩
  have breaks : CalledBlankly "contains(a,\n)".toList "contains".toList "a".toList ['\n'] :=
    ⟨by decide, [], [], by decide, by decide, rfl⟩
  obtain ⟨_, calls, _⟩ := value_missing_only_in_blank_calls .strict "contains( a.b ,\t\n)" 3
  obtain ⟨_, lines, _⟩ := value_missing_only_in_blank_calls .strict "contains(a,\n)" 0
  obtain ⟨_, _, words⟩ := value_missing_only_in_blank_calls .lenient " age  ge " 0
  refine ⟨blankly, calls .contains "a.b" _ (by decide) blankly, ?_, ?_⟩
  · exact lines .contains "a" _ (by decide) breaks
  · exact words .ge "age" [' ', ' '] (by decide) (by decide) (by decide) (by decide)

/-- A blank before the closing parenthesis is taken for a value, and nothing is left of it. -/
theorem Grammar.blank_is_taken_for_value :
    ¬∀ (fragment : String) (position : Int) (clause : Clause),
      standard.readClause fragment.toList position = some clause →
      clause.operator.form ≠ .nullCheck →
      ∃ raw, clause.rawValue = some raw ∧ Text.IsTrimmed raw.toList := by
  intro always
  have read : standard.readClause "contains(name, )".toList 0 =
      some ⟨"name", .pattern .contains, some "", 0⟩ := by decide +kernel
  obtain ⟨raw, same, trimmed⟩ := always "contains(name, )" 0 _ read (by decide)
  cases same
  exact trimmed.ne_nil rfl

end QueryOptions
