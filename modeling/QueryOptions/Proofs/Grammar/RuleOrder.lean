import QueryOptions.Proofs.Grammar.Reading
import QueryOptions.Proofs.Request.Reading

/-!
The order of a grammar. A text is derived in the forms of two operators only if it is a comparison
with the word `null`, which is a null check as well. So grammars with the same operators read the
same, whatever the order in which they list them, as long as both try a null check before the
comparison with its keyword.
-/

namespace QueryOptions

/-- A null check is read by the comparison with its keyword, too, when it is not tried before. -/
inductive Operator.Precedes : Operator → Operator → Prop where
  | isNull : Precedes .isNull (.comparison .eq)
  | isNotNull : Precedes .isNotNull (.comparison .ne)

namespace Clause

variable {text field otherField : List Char} {operator other : Operator}
  {value? other? : Option (List Char)}

theorem precedes_of_derives (trimmed : Text.trim text = text)
    (derived : Derives text operator field value?) (isNull : operator.form = .nullCheck)
    (again : Derives text other otherField other?) (isComparison : other.form = .comparison) :
    operator.Precedes other := by
  obtain ⟨keyword, rest, parts, spelled⟩ :=
    word_of_derives trimmed derived (by rw [isNull]; decide)
  obtain ⟨_, _, otherParts, otherSpelled⟩ :=
    word_of_derives trimmed again (by rw [isComparison]; decide)
  rw [parts] at otherParts
  cases otherParts
  have sameWord : operator.word.toList = other.word.toList := spelled.symm.trans otherSpelled
  cases again with
  | isNull => cases isComparison
  | isNotNull => cases isComparison
  | call => cases isComparison
  | comparison kind =>
      cases derived with
      | comparison => cases isNull
      | call => cases isNull
      | isNull => cases kind <;> first | exact .isNull | exact absurd sameWord (by decide)
      | isNotNull => cases kind <;> first | exact .isNotNull | exact absurd sameWord (by decide)

/-- Two operators that derive one text are the same, or one of them has to precede the other. -/
theorem same_or_precedes (trimmed : Text.trim text = text)
    (derived : Derives text operator field value?) (again : Derives text other otherField other?) :
    operator = other ∨ operator.Precedes other ∨ other.Precedes operator := by
  cases own : operator.form with
  | call => exact .inl (same_operator trimmed derived again
      (own.trans (call_apart derived own again).symm))
  | nullCheck =>
      cases second : other.form with
      | nullCheck => exact .inl (same_operator trimmed derived again (own.trans second.symm))
      | comparison => exact .inr (.inl (precedes_of_derives trimmed derived own again second))
      | call => exact absurd (own.symm.trans (call_apart again second derived)) (by decide)
  | comparison =>
      cases second : other.form with
      | nullCheck => exact .inr (.inr (precedes_of_derives trimmed again second derived own))
      | comparison => exact .inl (same_operator trimmed derived again (own.trans second.symm))
      | call => exact absurd (own.symm.trans (call_apart again second derived)) (by decide)

end Clause

namespace Grammar

/-- A grammar with a null check and with the comparison of its keyword lists the null check
first. -/
def ChecksNullFirst (grammar : Grammar) : Prop :=
  ∀ check comparison, check.Precedes comparison → check ∈ grammar → comparison ∈ grammar →
    grammar.idxOf check < grammar.idxOf comparison

theorem check_before_comparison {grammar before behind : Grammar} {check comparison : Operator}
    (first : grammar.ChecksNullFirst) (precedes : check.Precedes comparison)
    (whole : grammar = before ++ comparison :: behind) (listed : check ∈ grammar) :
    check ∈ before := by
  have earlier := first check comparison precedes listed (by simp [whole])
  by_contra absent
  have late : before.length ≤ grammar.idxOf check := by
    rw [whole, List.idxOf_append_of_notMem absent]
    omega
  have reached : grammar.idxOf comparison ≤ before.length := by
    rw [whole, List.idxOf_append]
    split
    · rename_i listedBefore
      exact Nat.le_of_lt (List.idxOf_lt_length_of_mem listedBefore)
    · simp
  omega

variable {left right : Grammar}

/-- A clause that one grammar reads is read by the other. The operators that read it are the first
ones that fit, and if they differed, one would have been tried too late. -/
theorem read_clause_transfer (same : ∀ operator, operator ∈ left ↔ operator ∈ right)
    (leftFirst : left.ChecksNullFirst) (rightFirst : right.ChecksNullFirst)
    {fragment : List Char} {position : Int} {clause : Clause}
    (read : left.readClause fragment position = some clause) :
    right.readClause fragment position = some clause := by
  have trimmed := Text.trim_trim fragment
  obtain ⟨before, operator, behind, whole, found, unread⟩ := List.findSome?_eq_some_iff.mp read
  have listed : operator ∈ right := (same operator).mp (by simp [whole])
  obtain ⟨second, readRight⟩ : ∃ second, right.readClause fragment position = some second :=
    Option.isSome_iff_exists.mp (List.findSome?_isSome_iff.mpr
      ⟨operator, listed, Option.isSome_iff_exists.mpr ⟨clause, found⟩⟩)
  obtain ⟨rightBefore, other, rightBehind, rightWhole, rightFound, rightUnread⟩ :=
    List.findSome?_eq_some_iff.mp readRight
  have otherListed : other ∈ left := (same other).mpr (by simp [rightWhole])
  obtain ⟨reading, readLeft, _⟩ := Option.map_eq_some_iff.mp found
  obtain ⟨otherReading, readOther, _⟩ := Option.map_eq_some_iff.mp rightFound
  obtain ⟨_, derived, _⟩ := Clause.derives_of_read readLeft
  obtain ⟨_, again, _⟩ := Clause.derives_of_read readOther
  rcases Clause.same_or_precedes trimmed derived again with rfl | precedes | precedes
  · exact readRight.trans (rightFound.symm.trans found)
  · have tried := rightUnread operator (check_before_comparison rightFirst precedes rightWhole listed)
    rw [readLeft] at tried
    cases tried
  · have tried := unread other (check_before_comparison leftFirst precedes whole otherListed)
    rw [readOther] at tried
    cases tried

theorem read_clause_same (same : ∀ operator, operator ∈ left ↔ operator ∈ right)
    (leftFirst : left.ChecksNullFirst) (rightFirst : right.ChecksNullFirst)
    (fragment : List Char) (position : Int) :
    left.readClause fragment position = right.readClause fragment position := by
  cases read : left.readClause fragment position with
  | some clause => exact (read_clause_transfer same leftFirst rightFirst read).symm
  | none =>
      cases readRight : right.readClause fragment position with
      | none => rfl
      | some clause =>
          have back := read_clause_transfer (fun operator => (same operator).symm) rightFirst
            leftFirst readRight
          rw [read] at back
          cases back

end Grammar

namespace Filter

theorem read_fragments_congr {left right : Grammar}
    (same : ∀ fragment position, left.readClause fragment position =
      right.readClause fragment position) (strictness : Strictness) (position : Int)
    (fragments : List String) :
    readFragments left strictness position fragments =
      readFragments right strictness position fragments := by
  induction fragments generalizing position with
  | nil => rfl
  | cons fragment rest induction =>
      rw [readFragments, readFragments, induction, readFragment, readFragment, same]

/-- The order of a grammar matters only for null checks. Two grammars with the same operators, in
any order and each as often as it likes, read the same clauses of every filter or fail alike, as
long as both list a null check before the comparison with its keyword. -/
theorem order_matters_only_for_null_checks {left right : Grammar}
    (same : ∀ operator, operator ∈ left ↔ operator ∈ right)
    (leftFirst : left.ChecksNullFirst) (rightFirst : right.ChecksNullFirst)
    (strictness : Strictness) (filter : Value) :
    Filter.read left strictness filter = Filter.read right strictness filter := by
  rw [read_eq_read_fragments, read_eq_read_fragments,
    read_fragments_congr (Grammar.read_clause_same same leftFirst rightFirst)]

def shuffled : Grammar := [
  .pattern .endsWith, .comparison .gt, .isNotNull, .comparison .le, .isNull, .comparison .eq,
  .isNull, .comparison .ne, .comparison .lt, .pattern .contains, .comparison .ge, .isNotNull,
  .pattern .startsWith]

theorem shuffled_same (operator : Operator) : operator ∈ Grammar.standard ↔ operator ∈ shuffled := by
  refine iff_of_true (Grammar.operator_listed operator) ?_
  rcases operator with _ | _ | kind | kind
  · decide
  · decide
  · cases kind <;> decide
  · cases kind <;> decide

theorem shuffled_reads_as_standard :
    (∀ operator, operator ∈ Grammar.standard ↔ operator ∈ shuffled) ∧
      Grammar.standard.ChecksNullFirst ∧ shuffled.ChecksNullFirst ∧
      Filter.read shuffled .strict (.text "name ne 'NULL' and name eq nullable and a.b eq null") =
        .ok [⟨"name", .isNotNull, none, 0⟩, ⟨"name", .comparison .eq, some "nullable", 1⟩,
          ⟨"a.b", .isNull, none, 2⟩] ∧
      Filter.read Grammar.standard .strict (.text "name eq 1 and name EQ 1") =
        Filter.read shuffled .strict (.text "name eq 1 and name EQ 1") := by
  have standardFirst : Grammar.standard.ChecksNullFirst := by
    rintro _ _ (_ | _) <;> decide
  have shuffledFirst : shuffled.ChecksNullFirst := by
    rintro _ _ (_ | _) <;> decide
  have reads := order_matters_only_for_null_checks shuffled_same standardFirst shuffledFirst .strict
  refine ⟨shuffled_same, standardFirst, shuffledFirst, (reads _).symm.trans ?_, reads _⟩
  exact ok_of_to_option (by decide +kernel)

/-- A comparison that is tried first reads the word `null` as its value. -/
example :
    (Grammar.readClause [.comparison .eq, .isNull] "name eq null".toList 0).map Clause.operator =
      some (.comparison .eq) := by
  decide +kernel

end Filter

end QueryOptions
