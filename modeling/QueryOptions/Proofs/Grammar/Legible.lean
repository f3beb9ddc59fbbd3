import QueryOptions.Proofs.Agreement.Clauses
import QueryOptions.Proofs.Grammar.Reading

/-!
Legible clauses: texts that stand for one clause wherever they stand in a filter. A null check is
legible. A comparison with single blanks is legible too, and so is a call without blanks, as long as
the raw value is one line between ink that hides no separator.
-/

namespace QueryOptions.Clause

open Agreement (separator Writes)

/-- What it takes for a text to be read back in a filter: it is trimmed and hides no separator, it
is derived in the form of its operator, and no null check reads it in place of a comparison. -/
structure IsLegible (text : String) (operator : Operator) (field : String)
    (raw? : Option String) : Prop where
  trimmed : Text.IsTrimmed text.toList
  free : Text.occursIn separator (text.toList ++ [' ']) = false
  derived : Derives text.toList operator field.toList (raw?.map String.toList)
  rawTrimmed : ∀ raw, raw? = some raw → Text.trim raw.toList = raw.toList
  alone : ∀ null : Operator, null.form = .nullCheck → operator.form = .comparison →
    null.read text.toList = none

theorem IsLegible.read {text field : String} {operator : Operator} {raw? : Option String}
    (legible : IsLegible text operator field raw?) (position : Int) :
    Grammar.standard.readClause text.toList position =
      some ⟨field, operator, raw?, position⟩ := by
  have trimmed := legible.trimmed.trim
  have derived := legible.derived
  have alone := legible.alone
  rw [← trimmed] at derived alone
  have raw : (raw?.map String.toList).map (fun value => String.ofList (Text.trim value)) =
      raw? := by
    cases known : raw? with
    | none => rfl
    | some raw => simp [legible.rawTrimmed raw known]
  rw [Grammar.read_clause_of_derives derived alone, raw, String.ofList_toList]

theorem parts_of_legible {texts : List String}
    (legible : ∀ text ∈ texts, ∃ operator field raw?, IsLegible text operator field raw?) :
    (Value.text (" and ".intercalate texts)).parts Filter.fragments = texts := by
  refine Agreement.parts_joined ?_ ?_
  · intro member
    obtain ⟨_, _, _, known⟩ := legible _ member
    exact known.trimmed.ne_nil rfl
  · intro text member
    obtain ⟨_, _, _, known⟩ := legible text member
    exact known.free

structure IsSpaced (text field keyword raw : String) : Prop where
  parts : text.toList = field.toList ++ ' ' :: (keyword.toList ++ ' ' :: raw.toList)
  isPath : Identifier.isPath field = true
  keywordInk : ∀ c ∈ keyword.toList, Text.isBlank c = false
  keywordGiven : keyword.toList ≠ []
  apart : ∀ more, Text.dropPrefix? separator (' ' :: (keyword.toList ++ more)) = none
  shaped : Writes.IsShaped raw.toList

namespace IsSpaced

variable {text field keyword raw : String}

theorem path (spaced : IsSpaced text field keyword raw) :
    Identifier.Path Identifier.isStart field.toList :=
  Identifier.path_of_is_path_from spaced.isPath

theorem field_ink (spaced : IsSpaced text field keyword raw) :
    ∀ c ∈ field.toList, Text.isBlank c = false :=
  spaced.path.ink fun _ => Identifier.start_is_word

theorem free (spaced : IsSpaced text field keyword raw) :
    Text.occursIn separator (text.toList ++ [' ']) = false := by
  rw [spaced.parts]
  exact spaced.shaped.spaced_free spaced.field_ink spaced.keywordInk spaced.apart

theorem trimmed (spaced : IsSpaced text field keyword raw) : Text.IsTrimmed text.toList := by
  rw [spaced.parts]
  exact (Text.IsTrimmed.of_ink spaced.path.ne_nil spaced.field_ink).joined
    ((Text.IsTrimmed.of_ink spaced.keywordGiven spaced.keywordInk).joined spaced.shaped.trimmed)

theorem cut (spaced : IsSpaced text field keyword raw) :
    threeParts? text.toList = some (field.toList, keyword.toList, raw.toList) := by
  rw [spaced.parts]
  exact three_parts_of_written spaced.field_ink spaced.keywordInk spaced.keywordGiven
    spaced.shaped.trimmed

theorem spaced (spaced : IsSpaced text field keyword raw) :
    Spaced text.toList field.toList keyword.toList raw.toList := by
  refine ⟨[' '], [' '], by decide, by decide, by decide, by decide, ?_⟩
  rw [spaced.parts]
  simp

end IsSpaced

section NullChecks

theorem null_keyword_apart {operator : Operator} (isNull : operator.form = .nullCheck) :
    (∃ first letters, operator.word.toList = first :: letters ∧ first ≠ 'a') ∧
      ∀ c ∈ operator.word.toList, Text.isBlank c = false := by
  cases operator with
  | isNull => exact ⟨⟨'e', ['q'], rfl, by decide⟩, Text.ink_of_all (by decide)⟩
  | isNotNull => exact ⟨⟨'n', ['e'], rfl, by decide⟩, Text.ink_of_all (by decide)⟩
  | comparison => cases isNull
  | pattern => cases isNull

/-- Blanks hide no separator as long as they are not followed by its first letter. -/
theorem occurs_behind_blanks {blanks : List Char} (isBlanks : Text.Blanks blanks) {next : Char}
    (apart : next ≠ 'a') (rest : List Char) :
    Text.occursIn separator (blanks ++ next :: rest) = Text.occursIn separator (next :: rest) := by
  have second {c : Char} (differs : c ≠ 'a') (more : List Char) (blank : Char) :
      Text.dropPrefix? separator (blank :: c :: more) = none := by
    simp [separator, Text.dropPrefix?, Ne.symm differs]
  induction blanks with
  | nil => rfl
  | cons blank blanks induction =>
      have later := induction fun c member => isBlanks c (List.mem_cons_of_mem blank member)
      rw [List.cons_append, Text.occursIn, later]
      cases blanks with
      | nil => rw [List.nil_append, second apart]; rfl
      | cons other blanks =>
          have differs : other ≠ 'a' := by
            rintro rfl
            exact absurd (isBlanks 'a' (by simp)) (by decide)
          rw [List.cons_append, second differs]
          rfl

variable {text field keyword word : List Char} (spaced : Spaced text field keyword word)
  (null : NullWord word)

include spaced null

theorem null_check_trimmed (path : Identifier.Path Identifier.isStart field) :
    Text.IsTrimmed text := by
  obtain ⟨wordGiven, wordInk⟩ := null.ink
  obtain ⟨first, others, opening, ink⟩ :=
    (Text.IsTrimmed.of_ink path.ne_nil (path.ink fun _ => Identifier.start_is_word)).starts
  obtain ⟨before, last, closing, lastInk⟩ := (Text.IsTrimmed.of_ink wordGiven wordInk).ends
  obtain ⟨left, right, _, _, _, _, rfl⟩ := spaced
  refine ⟨⟨first, others ++ left ++ keyword ++ right ++ word, ?_, ink⟩,
    ⟨field ++ left ++ keyword ++ right ++ before, last, ?_, lastInk⟩⟩
  · simp [opening]
  · simp [closing]

theorem null_check_free (fieldInk : ∀ c ∈ field, Text.isBlank c = false)
    (opens : (∃ first letters, keyword = first :: letters ∧ first ≠ 'a') ∧
      ∀ c ∈ keyword, Text.isBlank c = false) :
    Text.occursIn separator (text ++ [' ']) = false := by
  obtain ⟨⟨first, letters, rfl, apart⟩, keywordInk⟩ := opens
  have behindInk {run : List Char} (ink : ∀ c ∈ run, Text.isBlank c = false) (rest : List Char) :
      Text.occursIn separator (run ++ rest) = Text.occursIn separator rest :=
    Text.occurs_behind_ink rest fun member => absurd (ink ' ' member) (by decide)
  obtain ⟨_, wordInk⟩ := null.ink
  obtain ⟨letter, others, rfl, opening⟩ := null.opens
  have letterApart : letter ≠ 'a' := by
    rintro rfl
    exact absurd opening (by decide)
  obtain ⟨left, right, leftBlanks, _, rightBlanks, _, rfl⟩ := spaced
  have atKeyword := occurs_behind_blanks leftBlanks apart
    (letters ++ (right ++ (letter :: others ++ [' '])))
  have behindKeyword := behindInk keywordInk (right ++ (letter :: others ++ [' ']))
  have atWord := occurs_behind_blanks rightBlanks letterApart (others ++ [' '])
  have behindWord := behindInk wordInk [' ']
  simp only [List.append_assoc, List.cons_append] at *
  rw [behindInk fieldInk, atKeyword, behindKeyword, atWord, behindWord]
  decide

end NullChecks

section Forms

variable {field : String} (isPath : Identifier.isPath field = true)

include isPath

theorem null_check_legible {text : String} {word : List Char} (operator : Operator)
    (isNull : operator.form = .nullCheck)
    (spaced : Spaced text.toList field.toList operator.word.toList word) (null : NullWord word) :
    IsLegible text operator field none := by
  have path : Identifier.Path Identifier.isStart field.toList :=
    Identifier.path_of_is_path_from isPath
  have caseless := path.weaken fun _ => Identifier.start_is_caseless_start
  have derived : Derives text.toList operator field.toList none := by
    cases operator with
    | isNull => exact .isNull caseless spaced (by decide) null
    | isNotNull => exact .isNotNull caseless spaced (by decide) null
    | comparison => cases isNull
    | pattern => cases isNull
  refine ⟨null_check_trimmed spaced null path, ?_, derived, by simp, ?_⟩
  · exact null_check_free spaced null (path.ink fun _ => Identifier.start_is_word)
      (null_keyword_apart isNull)
  · intro _ _ isComparison
    exact absurd (isNull.symm.trans isComparison) (by decide)

variable {raw : String} (shaped : Writes.IsShaped raw.toList)

include shaped

theorem comparison_spaced (kind : Comparison) :
    IsSpaced (field ++ " " ++ kind.keyword ++ " " ++ raw) field kind.keyword raw where
  parts := by simp
  isPath := isPath
  keywordInk := (Operator.comparison_word_ink kind).2
  keywordGiven := (Operator.comparison_word_ink kind).1
  apart := by cases kind <;> exact fun _ => rfl
  shaped := shaped

theorem comparison_legible (kind : Comparison)
    (noNull : kind = .eq ∨ kind = .ne → ¬NullWord raw.toList) :
    IsLegible (field ++ " " ++ kind.keyword ++ " " ++ raw) (.comparison kind) field
      (some raw) := by
  have spaced := comparison_spaced isPath shaped kind
  refine ⟨spaced.trimmed, spaced.free,
    .comparison kind spaced.path spaced.spaced ⟨shaped.trimmed.ne_nil, shaped.oneLine⟩, ?_, ?_⟩
  · rintro _ ⟨⟩
    exact shaped.trimmed.trim
  · intro null isNull _
    refine null_check_unread spaced.cut ?_ isNull
    intro spelled
    refine noNull ?_
    cases null with
    | isNull => cases kind <;> first | exact .inl rfl | cases spelled
    | isNotNull => cases kind <;> first | exact .inr rfl | cases spelled
    | comparison => cases isNull
    | pattern => cases isNull

omit isPath shaped in
theorem call_trimmed (kind : Pattern) (field raw : String) :
    Text.IsTrimmed (kind.keyword ++ "(" ++ field ++ "," ++ raw ++ ")").toList := by
  obtain ⟨first, letters, opened, ink⟩ : ∃ first letters,
      kind.keyword.toList = first :: letters ∧ Text.isBlank first = false := by
    cases kind <;> exact ⟨_, _, rfl, rfl⟩
  refine ⟨⟨first, letters ++ '(' :: (field.toList ++ ',' :: (raw.toList ++ [')'])), ?_, ink⟩,
    ⟨kind.keyword.toList ++ '(' :: (field.toList ++ ',' :: raw.toList), ')', ?_, by decide⟩⟩
  · simp [opened]
  · simp

theorem call_free (kind : Pattern) :
    Text.occursIn separator
      ((kind.keyword ++ "(" ++ field ++ "," ++ raw ++ ")").toList ++ [' ']) = false := by
  have path : Identifier.Path Identifier.isStart field.toList :=
    Identifier.path_of_is_path_from isPath
  have noBlank : ' ' ∉ kind.keyword.toList ++ '(' :: (field.toList ++ [',']) := by
    have fieldNone : ' ' ∉ field.toList := fun member =>
      absurd (path.ink (fun _ => Identifier.start_is_word) ' ' member) (by decide)
    have nameNone : ' ' ∉ kind.keyword.toList := by cases kind <;> decide
    simp [fieldNone, nameNone]
  have parts : (kind.keyword ++ "(" ++ field ++ "," ++ raw ++ ")").toList ++ [' '] =
      (kind.keyword.toList ++ '(' :: (field.toList ++ [','])) ++ (raw.toList ++ ')' :: [' ']) := by
    simp
  have absent : Text.occursIn separator raw.toList = false := Text.absent_in_part shaped.free
  have unused : ')' ∉ separator := by decide
  rw [parts, separator, Text.occurs_behind_ink _ noBlank]
  exact (Text.occurs_beyond [' '] unused absent).trans (by decide)

theorem call_legible (kind : Pattern) :
    IsLegible (kind.keyword ++ "(" ++ field ++ "," ++ raw ++ ")") (.pattern kind) field
      (some raw) := by
  refine ⟨call_trimmed kind field raw, call_free isPath shaped kind,
    .call kind (Identifier.path_of_is_path_from isPath) ?_
      ⟨shaped.trimmed.ne_nil, shaped.oneLine⟩, ?_, fun _ _ isComparison => by cases isComparison⟩
  · refine ⟨[], [], [], [], by decide, by decide, by decide, by decide, ?_⟩
    simp
  · rintro _ ⟨⟩
    exact shaped.trimmed.trim

end Forms

end QueryOptions.Clause
