import QueryOptions.Memory.Row
import QueryOptions.Proofs.Text.Wildcards

/-!
Patterns as regular expressions. A pattern is turned into an expression by writing a repeated point
for `%`, a point for `_`, and every other character escaped where the expression could take it for
something else. The expression is read back as one item for each character of the pattern, whatever
the characters are, and the texts that the items accept as a whole are those that the pattern
matches.
-/

namespace QueryOptions

namespace Expression

def metacharacters : List Char :=
  ['.', '^', '$', '*', '+', '?', '{', '}', '[', ']', '\\', '|', '(', ')']

def escapable : List Char :=
  ['(', ')', '[', ']', '{', '}', '?', '*', '+', '-', '|', '^', '$', '\\', '.', '&', '~', '#', ' ',
    '\t', '\n', '\r', '\x0b', '\x0c']

inductive Place where
  | any
  | letter (c : Char)
  deriving DecidableEq, Repr

inductive Token where
  | place (place : Place)
  | star
  deriving DecidableEq, Repr

structure Item where
  place : Place
  repeated : Bool
  deriving DecidableEq, Repr

/-- The tokens of an expression without groups, classes and alternatives. A backslash makes the
character behind it stand for itself, unless that is a letter or a digit. -/
def tokens? : List Char → Option (List Token)
  | [] => some []
  | ['\\'] => none
  | '\\' :: c :: rest =>
      if c.isAlphanum then none else (tokens? rest).map (.place (.letter c) :: ·)
  | c :: rest =>
      if c = '.' then (tokens? rest).map (.place .any :: ·)
      else if c = '*' then (tokens? rest).map (.star :: ·)
      else if c ∈ metacharacters then none
      else (tokens? rest).map (.place (.letter c) :: ·)

def items? : List Token → Option (List Item)
  | [] => some []
  | .star :: _ => none
  | .place place :: .star :: rest => (items? rest).map (⟨place, true⟩ :: ·)
  | .place place :: rest => (items? rest).map (⟨place, false⟩ :: ·)

def read? (expression : List Char) : Option (List Item) := (tokens? expression).bind items?

def Place.Fits : Place → Char → Prop
  | .any, _ => True
  | .letter expected, c => expected = c

/-- The texts that items accept from their first to their last character. -/
inductive Accepts : List Item → List Char → Prop where
  | done : Accepts [] []
  | once {place : Place} {c : Char} {items : List Item} {text : List Char} (fits : place.Fits c)
      (rest : Accepts items text) : Accepts (⟨place, false⟩ :: items) (c :: text)
  | stop {place : Place} {items : List Item} {text : List Char} (rest : Accepts items text) :
      Accepts (⟨place, true⟩ :: items) text
  | again {place : Place} {c : Char} {items : List Item} {text : List Char} (fits : place.Fits c)
      (rest : Accepts (⟨place, true⟩ :: items) text) :
      Accepts (⟨place, true⟩ :: items) (c :: text)

def escape (c : Char) : List Char := if c ∈ escapable then ['\\', c] else [c]

def ofLetter (letter : Char) : List Char :=
  if letter = '%' then ['.', '*'] else if letter = '_' then ['.'] else escape letter

def ofPattern (pattern : List Char) : List Char := pattern.flatMap ofLetter

def tokensOf (letter : Char) : List Token :=
  if letter = '%' then [.place .any, .star]
  else if letter = '_' then [.place .any]
  else [.place (.letter letter)]

/-- What a character of a pattern is read as, once it has become a part of an expression. -/
def itemOf (letter : Char) : Item :=
  if letter = '%' then ⟨.any, true⟩
  else if letter = '_' then ⟨.any, false⟩
  else ⟨.letter letter, false⟩

section Reading

theorem metacharacter_escapable {c : Char} (special : c ∈ metacharacters) : c ∈ escapable := by
  have table : (metacharacters.all fun c => decide (c ∈ escapable)) = true := by decide
  exact of_decide_eq_true (List.all_eq_true.mp table c special)

theorem tokens_of_escaped {c : Char} (special : c ∈ escapable) (rest : List Char) :
    tokens? ('\\' :: c :: rest) = (tokens? rest).map (.place (.letter c) :: ·) := by
  have table : (escapable.all fun c => !c.isAlphanum) = true := by decide
  have noLetter : c.isAlphanum = false := by
    simpa using List.all_eq_true.mp table c special
  rw [tokens?, noLetter]
  rfl

theorem tokens_of_plain {c : Char} (plain : c ∉ escapable) (rest : List Char) :
    tokens? (c :: rest) = (tokens? rest).map (.place (.letter c) :: ·) := by
  have noMeta : c ∉ metacharacters := fun special =>
    plain (metacharacter_escapable special)
  have noBackslash : c ≠ '\\' := fun same => plain (same ▸ by decide)
  have noPoint : c ≠ '.' := fun same => plain (same ▸ by decide)
  have noStar : c ≠ '*' := fun same => plain (same ▸ by decide)
  rw [tokens?, if_neg noPoint, if_neg noStar, if_neg noMeta]
  · exact fun same => absurd same noBackslash
  · exact fun _ _ same => absurd same noBackslash

theorem tokens_of_letter (letter : Char) (rest : List Char) :
    tokens? (ofLetter letter ++ rest) = (tokens? rest).map (tokensOf letter ++ ·) := by
  unfold ofLetter tokensOf
  by_cases isAny : letter = '%'
  · rw [if_pos isAny, if_pos isAny]
    cases found : tokens? rest <;> simp [tokens?, found]
  · rw [if_neg isAny, if_neg isAny]
    by_cases isOne : letter = '_'
    · rw [if_pos isOne, if_pos isOne]
      rfl
    · rw [if_neg isOne, if_neg isOne, escape]
      by_cases special : letter ∈ escapable
      · rw [if_pos special]
        exact tokens_of_escaped special rest
      · rw [if_neg special]
        exact tokens_of_plain special rest

theorem tokens_of_pattern (pattern : List Char) :
    tokens? (ofPattern pattern) = some (pattern.flatMap tokensOf) := by
  induction pattern with
  | nil => rfl
  | cons letter pattern induction =>
      have behind : tokens? (pattern.flatMap ofLetter) = some (pattern.flatMap tokensOf) :=
        induction
      rw [ofPattern, List.flatMap_cons, tokens_of_letter, behind]
      rfl

/-- No character of a pattern becomes a star that would belong to the one before it. -/
theorem pattern_opens_with_place (pattern : List Char) (rest : List Token) :
    pattern.flatMap tokensOf ≠ .star :: rest := by
  cases pattern with
  | nil => exact List.cons_ne_nil _ _ |>.symm
  | cons letter pattern =>
      rw [List.flatMap_cons, tokensOf]
      split
      · simp
      · split <;> simp

theorem items_of_letter (letter : Char) {tokens : List Token}
    (opens : ∀ rest, tokens ≠ .star :: rest) :
    items? (tokensOf letter ++ tokens) = (items? tokens).map (itemOf letter :: ·) := by
  have once (place : Place) :
      items? (.place place :: tokens) = (items? tokens).map (⟨place, false⟩ :: ·) := by
    rw [items?]
    exact opens
  unfold tokensOf itemOf
  split
  · rfl
  · split
    · exact once .any
    · exact once (.letter letter)

theorem read_of_pattern (pattern : List Char) :
    read? (ofPattern pattern) = some (pattern.map itemOf) := by
  rw [read?, tokens_of_pattern, Option.bind_some]
  -- The letters are peeled off one by one; what is behind one never opens with a star.
  induction pattern with
  | nil => rfl
  | cons letter pattern induction =>
      rw [List.flatMap_cons, items_of_letter letter (pattern_opens_with_place pattern), induction]
      rfl

end Reading

section Meaning

variable {items : List Item} {pattern text : List Char}

theorem accepts_any_iff : Accepts (⟨.any, true⟩ :: items) text ↔
    ∃ before rest, text = before ++ rest ∧ Accepts items rest := by
  constructor
  · intro accepted
    induction text with
    | nil =>
        cases accepted with
        | stop rest => exact ⟨[], [], rfl, rest⟩
    | cons c text induction =>
        cases accepted with
        | stop rest => exact ⟨[], c :: text, rfl, rest⟩
        | again _ rest =>
            obtain ⟨before, ending, rfl, accepted⟩ := induction rest
            exact ⟨c :: before, ending, rfl, accepted⟩
  · rintro ⟨before, rest, rfl, accepted⟩
    induction before with
    | nil => exact .stop accepted
    | cons c before induction => exact .again trivial induction

theorem accepts_once_iff {place : Place} : Accepts (⟨place, false⟩ :: items) text ↔
    ∃ c rest, text = c :: rest ∧ place.Fits c ∧ Accepts items rest := by
  constructor
  · rintro (_ | ⟨fits, rest⟩)
    exact ⟨_, _, rfl, fits, rest⟩
  · rintro ⟨c, rest, rfl, fits, accepted⟩
    exact .once fits accepted

theorem accepts_iff_matches :
    Accepts (pattern.map itemOf) text ↔ Like.Matches (· == ·) pattern text := by
  induction pattern generalizing text with
  | nil =>
      rw [Like.Matches.nil_iff]
      constructor
      · rintro ⟨⟩
        rfl
      · rintro rfl
        exact .done
  | cons letter pattern induction =>
      rw [List.map_cons, itemOf]
      by_cases isAny : letter = '%'
      · rw [if_pos isAny, isAny, accepts_any_iff, Like.Matches.any_iff]
        simp only [induction]
      · rw [if_neg isAny]
        by_cases isOne : letter = '_'
        · rw [if_pos isOne, isOne, accepts_once_iff]
          simp only [induction, Place.Fits, true_and, Like.Matches.one_iff]
        · rw [if_neg isOne, accepts_once_iff, Like.Matches.char_iff isAny isOne]
          simp only [induction, Place.Fits, beq_iff_eq]

end Meaning

end Expression

namespace Memory

/-- Whether a text satisfies an operator with a pattern as its operand is decided by the rules of
matching, and by them alone: the same texts are accepted as a whole by the expression of the
pattern. A character that is no wildcard stands for itself wherever it stands and whatever it means
in expressions, and wildcards for any text count once when they stand next to each other. -/
theorem patterns_follow_rules (kind : Pattern) (text : String) :
    let selects := fun pattern : List Char =>
      holds (.pattern kind) (.text text) (.text (String.ofList pattern))
    (∀ pattern, selects pattern = true ↔ Like.Matches (· == ·) pattern text.toList) ∧
    (∀ pattern, ∃ items, Expression.read? (Expression.ofPattern pattern) = some items ∧
      (selects pattern = true ↔ Expression.Accepts items text.toList)) ∧
    (∀ before behind letter, letter ≠ '%' → letter ≠ '_' →
      (selects (before ++ letter :: behind) = true ↔ ∃ left right,
        text.toList = left ++ letter :: right ∧ Like.Matches (· == ·) before left ∧
          Like.Matches (· == ·) behind right)) ∧
    ∀ before behind more,
      selects (before ++ '%' :: (List.replicate more '%' ++ behind)) =
        selects (before ++ '%' :: behind) := by
  intro selects
  have rules (pattern : List Char) :
      selects pattern = true ↔ Like.Matches (· == ·) pattern text.toList := by
    have meaning : selects pattern =
        Like.matchesWith (· == ·) (String.ofList pattern).toList text.toList := rfl
    rw [meaning, String.toList_ofList, Like.matches_with_iff]
  refine ⟨rules, ?_, ?_, ?_⟩
  · intro pattern
    refine ⟨_, Expression.read_of_pattern pattern, ?_⟩
    rw [rules, Expression.accepts_iff_matches]
  · intro before behind letter notAny notOne
    rw [rules, Like.Matches.letter_inside_iff notAny notOne]
    constructor
    · rintro ⟨left, c, right, parts, same, opens, closes⟩
      rw [← eq_of_beq same] at parts
      exact ⟨left, right, parts, opens, closes⟩
    · rintro ⟨left, right, parts, opens, closes⟩
      exact ⟨left, letter, right, parts, beq_self_eq_true letter, opens, closes⟩
  · intro before behind more
    rw [Bool.eq_iff_iff, rules, rules, Like.Matches.any_again_iff]

/-- Between wildcards a point stands for a point, and each of two wildcards may take nothing. -/
theorem patterns_follow_rules_point :
    '.' ≠ '%' ∧ '.' ≠ '_' ∧
      holds (.pattern .contains) (.text "a.b") (.text "%%.%") = true ∧
      holds (.pattern .contains) (.text "axb") (.text "%%.%") = false := by
  have notAny : '.' ≠ '%' := by decide
  have notOne : '.' ≠ '_' := by decide
  obtain ⟨_, _, found, _⟩ := patterns_follow_rules .contains "a.b"
  obtain ⟨_, _, missing, _⟩ := patterns_follow_rules .contains "axb"
  refine ⟨notAny, notOne, ?_, ?_⟩
  · refine (found ['%', '%'] ['%'] '.' notAny notOne).mpr ⟨['a'], ['b'], rfl, ?_, ?_⟩
    · exact .any [] (.any_alone ['a'])
    · exact .any_alone ['b']
  · rw [Bool.eq_false_iff]
    intro matched
    obtain ⟨left, right, parts, _⟩ := (missing ['%', '%'] ['%'] '.' notAny notOne).mp matched
    have member : '.' ∈ "axb".toList := by
      rw [parts]
      simp
    exact absurd member (by decide)

end Memory

end QueryOptions
