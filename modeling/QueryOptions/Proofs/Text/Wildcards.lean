import Mathlib.Data.List.Infix
import QueryOptions.Like

/-!
What a pattern with wildcards matches. The matcher marks all endings of a text in one pass for each
character of the pattern; the marks that it leaves say of each ending whether it matches by the
rules, which look at one character of the pattern at a time. Without wildcards a pattern matches the
one text that it spells.
-/

namespace QueryOptions.Like

/-- The rules of matching: the wildcard `%` takes any text, `_` any one character, and every other
character one that is the same. -/
inductive Matches (same : Char → Char → Bool) : (pattern text : List Char) → Prop where
  | done : Matches same [] []
  | any (before : List Char) {pattern text : List Char} (rest : Matches same pattern text) :
      Matches same ('%' :: pattern) (before ++ text)
  | one (c : Char) {pattern text : List Char} (rest : Matches same pattern text) :
      Matches same ('_' :: pattern) (c :: text)
  | char {letter c : Char} (notAny : letter ≠ '%') (notOne : letter ≠ '_')
      (fits : same letter c = true) {pattern text : List Char}
      (rest : Matches same pattern text) : Matches same (letter :: pattern) (c :: text)

section Marks

variable (marked : List Char → Bool) (text : List Char)

theorem tails_head : (text.tails.map marked).headD false = marked text := by
  cases text <;> rfl

theorem skip_any_tails :
    skipAny (text.tails.map marked) = text.tails.map fun ending => ending.tails.any marked := by
  induction text with
  | nil => rfl
  | cons c text induction =>
      rw [List.tails_cons, List.map_cons, skipAny, induction]
      cases text <;> rfl

def startsMarked (fits : Char → Bool) : List Char → Bool
  | [] => false
  | c :: rest => fits c && marked rest

theorem step_over_tails (fits : Char → Bool) :
    stepOver fits text (text.tails.map marked) = text.tails.map (startsMarked marked fits) := by
  induction text with
  | nil => rfl
  | cons c text induction =>
      have behind : ((c :: text).tails.map marked).drop 1 = text.tails.map marked := rfl
      rw [stepOver, behind, tails_head, induction]
      rfl

theorem starts_marked_iff (fits : Char → Bool) : startsMarked marked fits text = true ↔
    ∃ c rest, text = c :: rest ∧ fits c = true ∧ marked rest = true := by
  cases text with
  | nil => simp [startsMarked]
  | cons c rest => simp [startsMarked]

end Marks

/-- The marks are marks of endings, whatever the text: each character of the pattern makes new ones
of those of the rest. -/
theorem endings_marked (same : Char → Char → Bool) (pattern : List Char) :
    ∃ marked : List Char → Bool, ∀ text,
      matchingEndings same text pattern = text.tails.map marked := by
  induction pattern with
  | nil =>
      refine ⟨List.isEmpty, fun text => ?_⟩
      induction text with
      | nil => rfl
      | cons c text marks =>
          rw [matchingEndings] at marks
          rw [matchingEndings, List.length_cons, List.replicate_succ, List.cons_append, marks]
          rfl
  | cons letter pattern induction =>
      obtain ⟨marked, marks⟩ := induction
      by_cases isAny : letter = '%'
      · subst isAny
        refine ⟨fun ending => ending.tails.any marked, fun text => ?_⟩
        rw [matchingEndings, marks, skip_any_tails]
      · by_cases isOne : letter = '_'
        · subst isOne
          refine ⟨startsMarked marked fun _ => true, fun text => ?_⟩
          rw [matchingEndings, marks, step_over_tails]
        · refine ⟨startsMarked marked (same letter), fun text => ?_⟩
          rw [matchingEndings, marks, step_over_tails]
          · exact isAny
          · exact isOne

theorem endings_eq (same : Char → Char → Bool) (text pattern : List Char) :
    matchingEndings same text pattern = text.tails.map (matchesWith same pattern) := by
  obtain ⟨marked, marks⟩ := endings_marked same pattern
  have meaning : matchesWith same pattern = marked := by
    funext ending
    rw [matchesWith, marks, tails_head]
  rw [marks, meaning]

section Steps

variable {same : Char → Char → Bool} {pattern text : List Char}

theorem matches_with_nil : matchesWith same [] text = true ↔ text = [] := by
  unfold matchesWith matchingEndings
  cases text <;> simp [List.replicate_succ]

theorem matches_with_any : matchesWith same ('%' :: pattern) text = true ↔
    ∃ before rest, text = before ++ rest ∧ matchesWith same pattern rest = true := by
  rw [matchesWith, matchingEndings, endings_eq, skip_any_tails, tails_head, List.any_eq_true]
  simp only [List.mem_tails]
  constructor
  · rintro ⟨rest, ⟨before, rfl⟩, matched⟩
    exact ⟨before, rest, rfl, matched⟩
  · rintro ⟨before, rest, rfl, matched⟩
    exact ⟨rest, List.suffix_append before rest, matched⟩

theorem matches_with_one : matchesWith same ('_' :: pattern) text = true ↔
    ∃ c rest, text = c :: rest ∧ matchesWith same pattern rest = true := by
  rw [matchesWith, matchingEndings, endings_eq, step_over_tails, tails_head, starts_marked_iff]
  simp only [true_and]

theorem matches_with_char {letter : Char} (notAny : letter ≠ '%') (notOne : letter ≠ '_') :
    matchesWith same (letter :: pattern) text = true ↔
      ∃ c rest, text = c :: rest ∧ same letter c = true ∧ matchesWith same pattern rest = true := by
  rw [matchesWith, matchingEndings, endings_eq, step_over_tails, tails_head, starts_marked_iff]
  · exact notAny
  · exact notOne

end Steps

namespace Matches

variable {same : Char → Char → Bool}

section Inversion

variable {pattern text : List Char}

theorem nil_iff : Matches same [] text ↔ text = [] := by
  constructor
  · rintro ⟨⟩
    rfl
  · rintro rfl
    exact .done

theorem any_iff : Matches same ('%' :: pattern) text ↔
    ∃ before rest, text = before ++ rest ∧ Matches same pattern rest := by
  constructor
  · intro matched
    cases matched with
    | any before rest => exact ⟨before, _, rfl, rest⟩
    | char notAny _ _ _ => exact absurd rfl notAny
  · rintro ⟨before, rest, rfl, matched⟩
    exact .any before matched

theorem one_iff : Matches same ('_' :: pattern) text ↔
    ∃ c rest, text = c :: rest ∧ Matches same pattern rest := by
  constructor
  · intro matched
    cases matched with
    | one c rest => exact ⟨c, _, rfl, rest⟩
    | char _ notOne _ _ => exact absurd rfl notOne
  · rintro ⟨c, rest, rfl, matched⟩
    exact .one c matched

theorem char_iff {letter : Char} (notAny : letter ≠ '%') (notOne : letter ≠ '_') :
    Matches same (letter :: pattern) text ↔
      ∃ c rest, text = c :: rest ∧ same letter c = true ∧ Matches same pattern rest := by
  constructor
  · intro matched
    cases matched with
    | any before rest => exact absurd rfl notAny
    | one c rest => exact absurd rfl notOne
    | char _ _ fits rest => exact ⟨_, _, rfl, fits, rest⟩
  · rintro ⟨c, rest, rfl, fits, matched⟩
    exact .char notAny notOne fits matched

end Inversion

end Matches

/-- The matcher follows the rules. The induction is on the pattern, for all texts. -/
theorem matches_with_iff {same : Char → Char → Bool} {pattern text : List Char} :
    matchesWith same pattern text = true ↔ Matches same pattern text := by
  induction pattern generalizing text with
  | nil => rw [matches_with_nil, Matches.nil_iff]
  | cons letter pattern induction =>
      by_cases isAny : letter = '%'
      · rw [isAny, matches_with_any, Matches.any_iff]
        simp only [induction]
      · by_cases isOne : letter = '_'
        · rw [isOne, matches_with_one, Matches.one_iff]
          simp only [induction]
        · rw [matches_with_char isAny isOne, Matches.char_iff isAny isOne]
          simp only [induction]

namespace Matches

variable {same : Char → Char → Bool}

theorem append {first second left right : List Char} (before : Matches same first left)
    (behind : Matches same second right) : Matches same (first ++ second) (left ++ right) := by
  induction before with
  | done => exact behind
  | any before _ induction =>
      rw [List.append_assoc]
      exact .any before induction
  | one c _ induction => exact .one c induction
  | char notAny notOne fits _ induction => exact .char notAny notOne fits induction

theorem append_iff {first second text : List Char} : Matches same (first ++ second) text ↔
    ∃ left right, text = left ++ right ∧ Matches same first left ∧ Matches same second right := by
  constructor
  · intro matched
    induction first generalizing text with
    | nil => exact ⟨[], text, rfl, .done, matched⟩
    | cons letter first induction =>
        cases matched with
        | any before rest =>
            obtain ⟨left, right, rfl, opens, closes⟩ := induction rest
            exact ⟨before ++ left, right, (List.append_assoc ..).symm, .any before opens, closes⟩
        | one c rest =>
            obtain ⟨left, right, rfl, opens, closes⟩ := induction rest
            exact ⟨c :: left, right, rfl, .one c opens, closes⟩
        | char notAny notOne fits rest =>
            obtain ⟨left, right, rfl, opens, closes⟩ := induction rest
            exact ⟨_ :: left, right, rfl, .char notAny notOne fits opens, closes⟩
  · rintro ⟨left, right, rfl, opens, closes⟩
    exact opens.append closes

theorem any_alone (text : List Char) : Matches same ['%'] text := by
  have matched : Matches same ['%'] (text ++ []) := .any text .done
  rwa [List.append_nil] at matched

theorem then_any_iff {pattern text : List Char} : Matches same (pattern ++ ['%']) text ↔
    ∃ left rest, text = left ++ rest ∧ Matches same pattern left := by
  rw [append_iff]
  simp only [any_alone, and_true]

theorem any_run_iff {pattern text : List Char} (more : Nat) :
    Matches same ('%' :: (List.replicate more '%' ++ pattern)) text ↔
      Matches same ('%' :: pattern) text := by
  induction more with
  | zero => rfl
  | succ more induction =>
      rw [← induction, List.replicate_succ, List.cons_append]
      constructor
      · intro matched
        obtain ⟨before, rest, rfl, again⟩ := any_iff.mp matched
        obtain ⟨between, ending, rfl, closes⟩ := any_iff.mp again
        exact any_iff.mpr ⟨before ++ between, ending, by simp, closes⟩
      · exact fun matched => .any [] matched

theorem any_again_iff {before behind text : List Char} (more : Nat) :
    Matches same (before ++ '%' :: (List.replicate more '%' ++ behind)) text ↔
      Matches same (before ++ '%' :: behind) text := by
  rw [append_iff, append_iff]
  simp only [any_run_iff]

theorem letter_inside_iff {letter : Char} (notAny : letter ≠ '%') (notOne : letter ≠ '_')
    {before behind text : List Char} : Matches same (before ++ letter :: behind) text ↔
      ∃ left c right, text = left ++ c :: right ∧ same letter c = true ∧
        Matches same before left ∧ Matches same behind right := by
  rw [append_iff]
  simp only [char_iff notAny notOne]
  constructor
  · rintro ⟨left, _, rfl, opens, c, right, rfl, fits, closes⟩
    exact ⟨left, c, right, rfl, fits, opens, closes⟩
  · rintro ⟨left, c, right, rfl, fits, opens, closes⟩
    exact ⟨left, c :: right, rfl, opens, c, right, rfl, fits, closes⟩

/-- A pattern matches its own text: each wildcard stands for the character that it is. -/
theorem refl (reflexive : ∀ c, same c c = true) (text : List Char) : Matches same text text := by
  induction text with
  | nil => exact .done
  | cons c text induction =>
      by_cases isAny : c = '%'
      · subst isAny
        exact .any ['%'] induction
      · by_cases isOne : c = '_'
        · subst isOne
          exact .one '_' induction
        · exact .char isAny isOne (reflexive c) induction

end Matches

theorem matches_plain_iff {pattern text : List Char} (notAny : '%' ∉ pattern)
    (notOne : '_' ∉ pattern) : Matches (· == ·) pattern text ↔ text = pattern := by
  induction pattern generalizing text with
  | nil => exact Matches.nil_iff
  | cons letter pattern induction =>
      rw [List.mem_cons, not_or] at notAny notOne
      rw [Matches.char_iff (Ne.symm notAny.1) (Ne.symm notOne.1)]
      simp only [induction notAny.2 notOne.2, beq_iff_eq]
      constructor
      · rintro ⟨c, rest, rfl, rfl, rfl⟩
        rfl
      · rintro rfl
        exact ⟨letter, pattern, rfl, rfl, rfl⟩

end QueryOptions.Like
