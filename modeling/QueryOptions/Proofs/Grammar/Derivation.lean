import QueryOptions.Clause
import QueryOptions.Proofs.Text.Blanks
import QueryOptions.Proofs.Text.Splitting

/-!
The grammar of clauses, apart from any way of reading them. A clause is written in one of three
forms, and a text is derived in a form when it can be cut into the parts of that form at all: where
the parts end, and how many blanks belong to a value, is left open.
-/

namespace QueryOptions

namespace Identifier

/-- A path is a segment, or a segment with a point and a path behind it. A segment is a character
that opens segments with word characters behind it. -/
inductive Path (opens : Char → Bool) : List Char → Prop where
  | segment {first : Char} {others : List Char} (opened : opens first = true)
      (words : ∀ c ∈ others, Text.isWord c = true) : Path opens (first :: others)
  | dotted {first : Char} {others rest : List Char} (opened : opens first = true)
      (words : ∀ c ∈ others, Text.isWord c = true) (path : Path opens rest) :
      Path opens (first :: others ++ '.' :: rest)

end Identifier

namespace Clause

/-- A field, a keyword and the rest of a text, with at least one blank before and behind the
keyword. -/
def Spaced (text field keyword rest : List Char) : Prop :=
  ∃ left right, Text.Blanks left ∧ left ≠ [] ∧ Text.Blanks right ∧ right ≠ [] ∧
    text = field ++ left ++ keyword ++ right ++ rest

/-- A name with a field and an argument in parentheses; blanks may stand around both of them. -/
def Called (text name field argument : List Char) : Prop :=
  ∃ opening before behind closing, Text.Blanks opening ∧ Text.Blanks before ∧
    Text.Blanks behind ∧ Text.Blanks closing ∧
    text = name ++ '(' ::
      (opening ++ field ++ before ++ ',' :: (behind ++ argument ++ closing ++ [')']))

/-- The word `null` in any letter case, bare or between two equal quotes. -/
inductive NullWord : List Char → Prop where
  | bare {word : List Char} (letters : lowerAscii word = "null".toList) : NullWord word
  | quoted {quote : Char} {word : List Char} (isQuote : quote = '\'' ∨ quote = '"')
      (letters : lowerAscii word = "null".toList) : NullWord (quote :: (word ++ [quote]))

structure IsValue (value : List Char) : Prop where
  given : value ≠ []
  oneLine : '\n' ∉ value

inductive Form where
  | nullCheck | comparison | call
  deriving DecidableEq, Repr

/-- A text as a clause of an operator on a field, with the value as it stands in the text. In null
checks the letter case does not matter anywhere. -/
inductive Derives (text : List Char) : Operator → List Char → Option (List Char) → Prop where
  | isNull {field keyword word : List Char}
      (path : Identifier.Path Identifier.isCaselessStart field)
      (spaced : Spaced text field keyword word) (spelled : lowerAscii keyword = "eq".toList)
      (null : NullWord word) : Derives text .isNull field none
  | isNotNull {field keyword word : List Char}
      (path : Identifier.Path Identifier.isCaselessStart field)
      (spaced : Spaced text field keyword word) (spelled : lowerAscii keyword = "ne".toList)
      (null : NullWord word) : Derives text .isNotNull field none
  | comparison {field value : List Char} (kind : Comparison)
      (path : Identifier.Path Identifier.isStart field)
      (spaced : Spaced text field kind.keyword.toList value) (isValue : IsValue value) :
      Derives text (.comparison kind) field (some value)
  | call {field value : List Char} (kind : Pattern)
      (path : Identifier.Path Identifier.isStart field)
      (called : Called text kind.keyword.toList field value) (isValue : IsValue value) :
      Derives text (.pattern kind) field (some value)

end Clause

def Operator.form : Operator → Clause.Form
  | .isNull | .isNotNull => .nullCheck
  | .comparison _ => .comparison
  | .pattern _ => .call

namespace Identifier

section Paths

variable {opens : Char → Bool}

theorem is_segment_iff (segment : List Char) :
    isSegment opens segment = true ↔ ∃ first others, segment = first :: others ∧
      opens first = true ∧ ∀ c ∈ others, Text.isWord c = true := by
  cases segment with
  | nil => simp [isSegment]
  | cons first others =>
      rw [isSegment, Bool.and_eq_true, List.all_eq_true]
      constructor
      · rintro ⟨opened, words⟩
        exact ⟨first, others, rfl, opened, words⟩
      · rintro ⟨_, _, same, opened, words⟩
        cases same
        exact ⟨opened, words⟩

theorem Path.chars (starts : ∀ c, opens c = true → Text.isWord c = true) {name : List Char}
    (path : Path opens name) : ∀ c ∈ name, (Text.isWord c || c == '.') = true := by
  induction path with
  | segment opened words =>
      intro c member
      rw [Bool.or_eq_true]
      rcases List.mem_cons.mp member with rfl | later
      · exact .inl (starts _ opened)
      · exact .inl (words c later)
  | dotted opened words _ induction =>
      intro c member
      simp only [List.cons_append, List.mem_cons, List.mem_append] at member
      rcases member with rfl | later | rfl | rest
      · simp [starts _ opened]
      · simp [words c later]
      · rfl
      · exact induction c rest

theorem Path.ne_nil {name : List Char} (path : Path opens name) : name ≠ [] := by
  cases path <;> simp

theorem Path.weaken {wider : Char → Bool} (weaker : ∀ c, opens c = true → wider c = true)
    {name : List Char} (path : Path opens name) : Path wider name := by
  induction path with
  | segment opened words => exact .segment (weaker _ opened) words
  | dotted opened words _ induction => exact .dotted (weaker _ opened) words induction

theorem path_of_is_path_from {name : List Char} (isPath : isPathFrom opens name = true) :
    Path opens name := by
  -- By length: the first point may stand anywhere, and the path goes on behind it.
  induction length : name.length using Nat.strong_induction_on generalizing name with
  | _ length induction =>
      by_cases pointed : '.' ∈ name
      · obtain ⟨segment, rest, rfl, free⟩ := List.eq_append_cons_of_mem pointed
        unfold isPathFrom at isPath
        rw [Text.split_at_char_append, Text.split_at_char_of_not_mem free, List.all_append,
          Bool.and_eq_true] at isPath
        obtain ⟨first, others, rfl, opened, words⟩ :=
          (is_segment_iff segment).mp (by simpa using isPath.1)
        refine .dotted opened words (induction rest.length ?_ isPath.2 rfl)
        simp only [List.length_append, List.length_cons] at length
        omega
      · unfold isPathFrom at isPath
        rw [Text.split_at_char_of_not_mem pointed] at isPath
        obtain ⟨first, others, rfl, opened, words⟩ :=
          (is_segment_iff name).mp (by simpa using isPath)
        exact .segment opened words

variable (noPoint : opens '.' = false)

include noPoint

theorem point_not_in_segment {first : Char} {others : List Char} (opened : opens first = true)
    (words : ∀ c ∈ others, Text.isWord c = true) : '.' ∉ first :: others := by
  intro member
  rcases List.mem_cons.mp member with rfl | later
  · rw [noPoint] at opened
    cases opened
  · exact absurd (words '.' later) (by decide)

theorem is_path_from_iff (name : List Char) :
    isPathFrom opens name = true ↔ Path opens name := by
  refine ⟨path_of_is_path_from, ?_⟩
  intro path
  have isSegment {first : Char} {others : List Char} (opened : opens first = true)
      (words : ∀ c ∈ others, Text.isWord c = true) :
      isPathFrom opens (first :: others) = true := by
    unfold isPathFrom
    rw [Text.split_at_char_of_not_mem (point_not_in_segment noPoint opened words)]
    simpa using (is_segment_iff _).mpr ⟨first, others, rfl, opened, words⟩
  induction path with
  | segment opened words => exact isSegment opened words
  | dotted opened words _ induction =>
      have first := isSegment opened words
      unfold isPathFrom at first induction ⊢
      rw [Text.split_at_char_append, List.all_append, first, induction]
      rfl

end Paths

theorem start_is_word {c : Char} (start : isStart c = true) : Text.isWord c = true := by
  rw [isStart, Bool.or_eq_true] at start
  have ascii : c.toNat < 128 := by
    delta Char.isAlpha Char.isUpper Char.isLower at start
    simp only [UInt32.le_iff_toNat_le, Bool.or_eq_true, Bool.and_eq_true, decide_eq_true_eq,
      beq_iff_eq] at start
    rcases start with (upper | lower) | rfl
    · exact Nat.lt_of_le_of_lt upper.2 (by decide)
    · exact Nat.lt_of_le_of_lt lower.2 (by decide)
    · decide
  rw [Text.isWord, if_pos ascii, Text.isAsciiWord, Char.isAlphanum]
  rcases start with letter | underscore
  · simp [letter]
  · simp [underscore]

theorem caseless_start_is_word {c : Char} (start : isCaselessStart c = true) :
    Text.isWord c = true := by
  simp only [isCaselessStart, Bool.or_eq_true, beq_iff_eq] at start
  rcases start with (((plain | rfl) | rfl) | rfl) | rfl
  · exact start_is_word plain
  all_goals decide +kernel

theorem start_is_caseless_start {c : Char} (start : isStart c = true) :
    isCaselessStart c = true := by
  simp [isCaselessStart, start]

theorem Path.ink {opens : Char → Bool} (starts : ∀ c, opens c = true → Text.isWord c = true)
    {name : List Char} (path : Path opens name) : ∀ c ∈ name, Text.isBlank c = false := by
  intro c member
  cases blank : Text.isBlank c with
  | false => rfl
  | true =>
      have char := path.chars starts c member
      rw [Text.blank_not_word blank, Bool.false_or, beq_iff_eq] at char
      rw [char] at blank
      exact absurd blank (by decide)

end Identifier

end QueryOptions
