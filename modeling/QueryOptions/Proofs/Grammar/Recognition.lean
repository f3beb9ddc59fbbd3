import QueryOptions.Proofs.Grammar.Reading
import QueryOptions.Proofs.Text.Trimming

/-!
Fragments of three words: a field, a keyword and a literal. Behind a path and a comparison's keyword
any word is a literal, so the literal has no part in whether such a fragment is read. The word `null`
alone is read behind more than that: letter case does not matter in the keyword of a null check, and
segments of its field may start with the four letters that share a case with an ASCII letter.
-/

namespace QueryOptions

structure Text.IsSolid (text : List Char) : Prop where
  given : text ≠ []
  ink : ∀ c ∈ text, isBlank c = false

theorem Text.is_solid_iff (text : List Char) :
    IsSolid text ↔ text ≠ [] ∧ text.all (fun c => !isBlank c) = true := by
  rw [List.all_eq_true]
  simp only [Bool.not_eq_true']
  exact ⟨fun ⟨given, ink⟩ => ⟨given, ink⟩, fun ⟨given, ink⟩ => ⟨given, ink⟩⟩

-- Over the characters in the text: a bound over all characters could be decided by trying each.
instance (text : List Char) : Decidable (Text.IsSolid text) :=
  decidable_of_iff _ (Text.is_solid_iff text).symm

theorem Text.IsSolid.trimmed {text : List Char} (solid : IsSolid text) : IsTrimmed text :=
  .of_ink solid.given solid.ink

namespace Clause

def OpensComparison (field keyword : List Char) : Prop :=
  Identifier.isPathFrom Identifier.isStart field = true ∧
    ∃ kind : Comparison, kind.keyword.toList = keyword

def OpensNullCheck (field keyword : List Char) : Prop :=
  Identifier.isPathFrom Identifier.isCaselessStart field = true ∧
    (lowerAscii keyword = "eq".toList ∨ lowerAscii keyword = "ne".toList)

section Words

variable {field keyword literal : List Char} (fieldSolid : Text.IsSolid field)
  (keywordSolid : Text.IsSolid keyword) (literalSolid : Text.IsSolid literal)

include fieldSolid keywordSolid literalSolid

theorem words_trimmed : Text.IsTrimmed (field ++ ' ' :: (keyword ++ ' ' :: literal)) :=
  fieldSolid.trimmed.joined (keywordSolid.trimmed.joined literalSolid.trimmed)

theorem three_parts_of_words :
    threeParts? (field ++ ' ' :: (keyword ++ ' ' :: literal)) = some (field, keyword, literal) :=
  three_parts_of_written fieldSolid.ink keywordSolid.ink keywordSolid.given literalSolid.trimmed

omit fieldSolid keywordSolid literalSolid in
/-- The parenthesis of a call would have to stand in the first word. -/
theorem words_not_called {rest other argument : List Char} (kind : Pattern) (noCall : '(' ∉ field) :
    ¬Called (field ++ ' ' :: rest) kind.keyword.toList other argument := by
  have noBlank : ' ' ∉ kind.keyword.toList := by cases kind <;> decide
  rintro ⟨_, _, _, _, _, _, _, _, parts⟩
  rcases List.append_eq_append_iff.mp parts with ⟨more, name, behind⟩ | ⟨more, first, behind⟩
  · cases more with
    | nil => cases behind
    | cons c more =>
        obtain ⟨rfl, _⟩ := List.cons.inj behind
        exact noBlank (by simp [name])
  · cases more with
    | nil => cases behind
    | cons c more =>
        obtain ⟨rfl, _⟩ := List.cons.inj behind
        exact noCall (by simp [first])

theorem words_of_derives (noCall : '(' ∉ field) {operator : Operator} {other : List Char}
    {value? : Option (List Char)}
    (derived : Derives (field ++ ' ' :: (keyword ++ ' ' :: literal)) operator other value?) :
    other = field ∧
      (OpensComparison field keyword ∨ OpensNullCheck field keyword ∧ NullWord literal) := by
  have parts := three_parts_of_words fieldSolid keywordSolid literalSolid
  have trimmed := (words_trimmed fieldSolid keywordSolid literalSolid).trim
  cases derived with
  | isNull path spaced spelled null =>
      have found := null_parts path spaced spelled (by decide) (by decide) null
      rw [parts] at found
      cases found
      exact ⟨rfl, .inr
        ⟨⟨(Identifier.is_path_from_iff (by decide) _).mpr path, .inl spelled⟩, null⟩⟩
  | isNotNull path spaced spelled null =>
      have found := null_parts path spaced spelled (by decide) (by decide) null
      rw [parts] at found
      cases found
      exact ⟨rfl, .inr
        ⟨⟨(Identifier.is_path_from_iff (by decide) _).mpr path, .inr spelled⟩, null⟩⟩
  | comparison kind path spaced isValue =>
      have found := comparison_parts trimmed path spaced isValue
      rw [parts] at found
      cases found
      exact ⟨rfl, .inl ⟨(Identifier.is_path_from_iff (by decide) _).mpr path, kind, rfl⟩⟩
  | call kind path called isValue => exact absurd called (words_not_called kind noCall)

theorem derives_words_iff (noCall : '(' ∉ field) :
    (∃ operator other value?,
        Derives (field ++ ' ' :: (keyword ++ ' ' :: literal)) operator other value?) ↔
      OpensComparison field keyword ∨ OpensNullCheck field keyword ∧ NullWord literal := by
  have spaced : Spaced (field ++ ' ' :: (keyword ++ ' ' :: literal)) field keyword literal :=
    ⟨[' '], [' '], by decide, by decide, by decide, by decide, by simp⟩
  constructor
  · rintro ⟨operator, other, value?, derived⟩
    exact (words_of_derives fieldSolid keywordSolid literalSolid noCall derived).2
  · rintro (⟨isPath, kind, rfl⟩ | ⟨⟨isPath, spelled | spelled⟩, null⟩)
    · have oneLine : '\n' ∉ literal := fun member =>
        absurd (literalSolid.ink '\n' member) (by decide)
      exact ⟨_, _, _, .comparison kind (Identifier.path_of_is_path_from isPath) spaced
        ⟨literalSolid.given, oneLine⟩⟩
    · exact ⟨_, _, _, .isNull (Identifier.path_of_is_path_from isPath) spaced spelled null⟩
    · exact ⟨_, _, _, .isNotNull (Identifier.path_of_is_path_from isPath) spaced spelled null⟩

end Words

/-- Where letter case and the four letters make no difference, a null check opens like a
comparison. -/
theorem opens_comparison_of_null_check {field keyword : List Char}
    (lower : lowerAscii keyword = keyword)
    (plain : Identifier.isPathFrom Identifier.isCaselessStart field = true →
      Identifier.isPathFrom Identifier.isStart field = true)
    (opens : OpensNullCheck field keyword) : OpensComparison field keyword := by
  obtain ⟨isPath, spelled⟩ := opens
  rw [lower] at spelled
  refine ⟨plain isPath, ?_⟩
  rcases spelled with same | same
  · exact ⟨.eq, same.symm⟩
  · exact ⟨.ne, same.symm⟩

end Clause

namespace Grammar

open Clause (NullWord OpensComparison OpensNullCheck lowerAscii)

def words (field keyword literal : String) : String := field ++ " " ++ keyword ++ " " ++ literal

theorem words_to_list (field keyword literal : String) :
    (words field keyword literal).toList =
      field.toList ++ ' ' :: (keyword.toList ++ ' ' :: literal.toList) := by
  simp [words]

def Recognises (fragment : String) (position : Int) : Prop :=
  ∃ clause, standard.readClause fragment.toList position = some clause

section Words

variable {field keyword literal : String} (fieldSolid : Text.IsSolid field.toList)
  (keywordSolid : Text.IsSolid keyword.toList) (noCall : '(' ∉ field.toList)

include fieldSolid keywordSolid noCall

theorem recognises_words_iff (literalSolid : Text.IsSolid literal.toList) (position : Int) :
    Recognises (words field keyword literal) position ↔
      OpensComparison field.toList keyword.toList ∨
        OpensNullCheck field.toList keyword.toList ∧ NullWord literal.toList := by
  unfold Recognises
  rw [is_read_iff, words_to_list, (Clause.words_trimmed fieldSolid keywordSolid literalSolid).trim,
    Clause.derives_words_iff fieldSolid keywordSolid literalSolid noCall]

theorem field_of_words (literalSolid : Text.IsSolid literal.toList) {position : Int}
    {clause : Clause}
    (read : standard.readClause (words field keyword literal).toList position = some clause) :
    clause.field = field := by
  obtain ⟨reading, readable, whole⟩ := operator_of_read read
  obtain ⟨_, derived, _⟩ := Clause.derives_of_read readable
  rw [words_to_list, (Clause.words_trimmed fieldSolid keywordSolid literalSolid).trim] at derived
  obtain ⟨same, _⟩ :=
    Clause.words_of_derives fieldSolid keywordSolid literalSolid noCall derived
  rw [whole, same]
  exact String.ofList_toList

/-- Only the word `null` makes a difference to whether a fragment of three words is read. Behind a
path and a comparison's keyword every literal is read, and behind anything else at most `null`. So
two literals other than `null` are read behind the same words, which then begin with a path; and so
are any two literals if the keyword is in lower case and the field needs none of the four letters
that share a case with an ASCII letter. The clause is always on the first word. -/
theorem only_null_decides_recognition (position : Int) :
    (∀ literal : String, Text.IsSolid literal.toList →
      (Recognises (words field keyword literal) position ↔
        OpensComparison field.toList keyword.toList ∨
          OpensNullCheck field.toList keyword.toList ∧ NullWord literal.toList) ∧
      ∀ clause, standard.readClause (words field keyword literal).toList position = some clause →
        clause.field = field) ∧
    ∀ left right : String, Text.IsSolid left.toList → Text.IsSolid right.toList →
      (¬NullWord left.toList ∧ ¬NullWord right.toList ∨
        lowerAscii keyword.toList = keyword.toList ∧
          (Identifier.isPathFrom Identifier.isCaselessStart field.toList = true →
            Identifier.isPath field = true)) →
      (Recognises (words field keyword left) position ↔
        Recognises (words field keyword right) position) ∧
      (Recognises (words field keyword left) position → Identifier.isPath field = true) := by
  refine ⟨fun literal solid => ⟨?_, fun clause read => ?_⟩, ?_⟩
  · exact recognises_words_iff fieldSolid keywordSolid noCall solid position
  · exact field_of_words fieldSolid keywordSolid noCall solid read
  · intro left right leftSolid rightSolid alike
    have byComparison {literal : String} (solid : Text.IsSolid literal.toList)
        (checks : OpensNullCheck field.toList keyword.toList → NullWord literal.toList →
          OpensComparison field.toList keyword.toList) :
        Recognises (words field keyword literal) position ↔
          OpensComparison field.toList keyword.toList := by
      rw [recognises_words_iff fieldSolid keywordSolid noCall solid]
      exact ⟨fun opens => opens.elim id fun ⟨check, null⟩ => checks check null, .inl⟩
    have leftOpens : Recognises (words field keyword left) position ↔
        OpensComparison field.toList keyword.toList := by
      refine byComparison leftSolid fun check null => ?_
      rcases alike with ⟨noNull, _⟩ | ⟨lower, plain⟩
      · exact absurd null noNull
      · exact Clause.opens_comparison_of_null_check lower plain check
    have rightOpens : Recognises (words field keyword right) position ↔
        OpensComparison field.toList keyword.toList := by
      refine byComparison rightSolid fun check null => ?_
      rcases alike with ⟨_, noNull⟩ | ⟨lower, plain⟩
      · exact absurd null noNull
      · exact Clause.opens_comparison_of_null_check lower plain check
    exact ⟨leftOpens.trans rightOpens.symm, fun read => (leftOpens.mp read).1⟩

end Words

theorem only_null_decides_behind_dotted :
    Text.IsSolid "a.größe".toList ∧ Text.IsSolid "ne".toList ∧ '(' ∉ "a.größe".toList ∧
      (Recognises "a.größe ne 'NULL'" 2 ↔ Recognises "a.größe ne (5)" 2) ∧
      Recognises "a.größe ne (5)" 2 := by
  have fieldSolid : Text.IsSolid "a.größe".toList := by decide
  have keywordSolid : Text.IsSolid "ne".toList := by decide
  have noCall : '(' ∉ "a.größe".toList := by decide
  have isPath : Identifier.isPath "a.größe" = true := by decide +kernel
  obtain ⟨each, both⟩ := only_null_decides_recognition fieldSolid keywordSolid noCall 2
  have quotedSolid : Text.IsSolid "'NULL'".toList := by decide
  have numberSolid : Text.IsSolid "(5)".toList := by decide
  obtain ⟨same, _⟩ := both "'NULL'" "(5)" quotedSolid numberSolid
    (.inr ⟨by decide, fun _ => isPath⟩)
  exact ⟨fieldSolid, keywordSolid, noCall, same,
    (each "(5)" numberSolid).1.mpr (.inl ⟨isPath, .ne, rfl⟩)⟩

/-- Before `null` a keyword in capitals is read, and a field that is no path; before a number neither
is. -/
theorem null_is_read_behind_more :
    (Recognises (words "name" "EQ" "null") 0 ∧ ¬Recognises (words "name" "EQ" "5") 0) ∧
      (∃ clause, standard.readClause (words "ſize" "eq" "null").toList 0 = some clause ∧
        clause.field = "ſize" ∧ Identifier.isPath "ſize" = false) ∧
      ¬Recognises (words "ſize" "eq" "5") 0 := by
  have unread {fragment : String} (none : standard.readClause fragment.toList 0 = none) :
      ¬Recognises fragment 0 := by
    rintro ⟨clause, read⟩
    rw [none] at read
    cases read
  refine ⟨⟨⟨⟨"name", .isNull, none, 0⟩, ?_⟩, unread ?_⟩,
    ⟨⟨"ſize", .isNull, none, 0⟩, ?_, rfl, ?_⟩, unread ?_⟩
  all_goals decide +kernel

end Grammar

end QueryOptions
