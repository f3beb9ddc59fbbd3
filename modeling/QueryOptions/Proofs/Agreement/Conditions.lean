import QueryOptions.Filter
import QueryOptions.Proofs.Agreement.Users
import QueryOptions.Proofs.Request.Literals
import QueryOptions.Proofs.Text.Splitting
import QueryOptions.Proofs.Text.Trimming

/-!
Conditions on users as they are written in a filter. A condition is a column, a comparison and a raw
literal of the column's kind; its text is read back as the clause it stands for, whatever the
literal, and a conjunction of such texts comes apart into them.
-/

namespace QueryOptions.Agreement

open QueryOptions.Sql (Cell)

def separator : List Char := ' ' :: ("and".toList ++ [' '])

/-- A raw text that writes a literal beside a column: the word `null`, an integer of 64 bits beside
a column of integers, or a quoted line without the separator beside a column of texts. -/
inductive Writes : UserColumn → String → Literal → Prop where
  | null (column : UserColumn) : Writes column "null" .null
  | integer {column : UserColumn} {raw : String} {value : Int} (ofIntegers : column.kind = .integer)
      (read : Literal.ofRaw raw = .ok (.integer value)) (fits : Cell.fits value = true) :
      Writes column raw (.integer value)
  | text {column : UserColumn} {raw : String} {quote : Char} {inner : List Char}
      (ofTexts : column.kind = .text) (isQuote : quote = '\'' ∨ quote = '"')
      (quoted : raw.toList = quote :: (inner ++ [quote])) (oneLine : '\n' ∉ inner)
      (free : Text.occursIn separator inner = false) :
      Writes column raw (.text (String.ofList inner))

structure Condition where
  column : UserColumn
  comparison : Comparison
  raw : String
  literal : Literal
  writes : Writes column raw literal

namespace Writes

variable {column : UserColumn} {raw : String} {literal : Literal}

theorem reads (writes : Writes column raw literal) : Literal.ofRaw raw = .ok literal := by
  cases writes with
  | null => rfl
  | integer ofIntegers read fits => exact read
  | text ofTexts isQuote quoted oneLine free =>
      rename_i quote inner
      have unquoted : Literal.unquoted? raw.toList = some inner := by
        rw [quoted]
        rcases isQuote with rfl | rfl <;> simp [Literal.unquoted?]
      rw [Literal.ofRaw, unquoted]

theorem cell_of_kind (writes : Writes column raw literal) :
    IsOfKind column.kind (.ofLiteral literal) := by
  cases writes with
  | null => trivial
  | integer ofIntegers read fits => exact ofIntegers
  | text ofTexts isQuote quoted oneLine free => exact ofTexts

theorem fits_of_integer {value : Int} (writes : Writes column raw (.integer value)) :
    Cell.fits value = true := by
  cases writes with
  | integer ofIntegers read fits => exact fits

/-- The first character of a raw literal: a digit, a sign, a point, a quote or the letter of
`null`. -/
def OpensLiteral (c : Char) : Prop :=
  (Text.isDigit c = true ∨ c = '-' ∨ c = '.') ∨ c = '\'' ∨ c = '"' ∨ c = 'n'

theorem opens_not_separator {c : Char} (opens : OpensLiteral c) : c ≠ 'a' := by
  rcases opens with (digit | rfl | rfl) | rfl | rfl | rfl
  · rintro rfl
    exact absurd digit (by decide)
  all_goals decide

structure IsShaped (raw : List Char) : Prop where
  opens : ∃ first rest, raw = first :: rest ∧ OpensLiteral first
  trimmed : Text.IsTrimmed raw
  oneLine : '\n' ∉ raw
  free : Text.occursIn separator (raw ++ [' ']) = false

theorem numeral_shaped {numeral : Literal.PlainNumeral} (proper : numeral.IsProper) :
    IsShaped numeral.written := by
  have ink (c : Char) (member : c ∈ numeral.written) : Text.isBlank c = false := by
    rcases proper.chars c member with digit | rfl | rfl
    · exact Text.digit_not_blank digit
    · rfl
    · rfl
  obtain ⟨first, rest, parts, opens⟩ := proper.opens
  refine ⟨⟨first, rest, parts, .inl opens⟩, .of_ink (by simp [parts]) ink, ?_, ?_⟩
  · intro member
    exact absurd (ink '\n' member) (by decide)
  · rw [separator, Text.occurs_behind_ink]
    · decide
    · intro member
      exact absurd (ink ' ' member) (by decide)

theorem signed_shaped (negative : Bool) {digits : List Char} (given : digits ≠ [])
    (all : ∀ c ∈ digits, Text.isDigit c = true) : IsShaped (Literal.signed negative digits) := by
  rw [← Literal.PlainNumeral.whole_written ⟨negative, digits, none⟩ rfl]
  exact numeral_shaped ⟨all, by simp, .inl given⟩

/-- What hides no separator hides none between quotes: a quote belongs to no separator. -/
theorem quoted_shaped {quote : Char} {inner : List Char} (isQuote : quote = '\'' ∨ quote = '"')
    (oneLine : '\n' ∉ inner) (free : Text.occursIn separator inner = false) :
    IsShaped (quote :: (inner ++ [quote])) := by
  have ink : Text.isBlank quote = false := by rcases isQuote with rfl | rfl <;> rfl
  have unused : quote ∉ separator := by rcases isQuote with rfl | rfl <;> decide
  refine ⟨⟨quote, inner ++ [quote], rfl, ?_⟩, ⟨⟨quote, inner ++ [quote], rfl, ink⟩,
    ⟨quote :: inner, quote, rfl, ink⟩⟩, ?_, ?_⟩
  · rcases isQuote with rfl | rfl <;> simp [OpensLiteral]
  · rcases isQuote with rfl | rfl <;> simp [oneLine]
  · have opened : Text.occursIn separator (quote :: (inner ++ [quote] ++ [' '])) =
        Text.occursIn separator (inner ++ quote :: [' ']) := by
      have nothing : Text.occursIn separator [] = false := by decide
      rw [List.append_assoc]
      exact Text.occurs_beyond _ unused nothing
    rw [List.cons_append, opened, Text.occurs_beyond [' '] unused free]
    decide

theorem IsShaped.spaced_free {field keyword raw : List Char} (shaped : IsShaped raw)
    (fieldInk : ∀ c ∈ field, Text.isBlank c = false)
    (keywordInk : ∀ c ∈ keyword, Text.isBlank c = false)
    (notAtKeyword : ∀ more, Text.dropPrefix? separator (' ' :: (keyword ++ more)) = none) :
    Text.occursIn separator (field ++ ' ' :: (keyword ++ ' ' :: raw) ++ [' ']) = false := by
  obtain ⟨first, rest, parts, opens⟩ := shaped.opens
  have noBlank {text : List Char} (ink : ∀ c ∈ text, Text.isBlank c = false) : ' ' ∉ text :=
    fun member => absurd (ink ' ' member) (by decide)
  have notAtRaw : Text.dropPrefix? separator (' ' :: (raw ++ [' '])) = none := by
    rw [parts]
    simp [separator, Text.dropPrefix?, Ne.symm (opens_not_separator opens)]
  have free := shaped.free
  unfold separator at free notAtKeyword notAtRaw ⊢
  simp only [List.append_assoc, List.cons_append]
  rw [Text.occurs_behind_ink _ (noBlank fieldInk), Text.occursIn, notAtKeyword,
    Text.occurs_behind_ink _ (noBlank keywordInk), Text.occursIn, notAtRaw, free]
  rfl

theorem shaped (writes : Writes column raw literal) : IsShaped raw.toList := by
  cases writes with
  | null =>
      have ink : ∀ c ∈ "null".toList, Text.isBlank c = false := Text.ink_of_all (by decide)
      refine ⟨⟨'n', "ull".toList, rfl, by simp [OpensLiteral]⟩, .of_ink ?_ ink, ?_, ?_⟩ <;> decide
  | integer ofIntegers read fits =>
      obtain ⟨numeral, proper, written, _⟩ := Literal.numeral_of_raw raw
        (by simp [read]) (by simp [read]) (by simp [read])
      rw [written]
      exact numeral_shaped proper
  | text ofTexts isQuote quoted oneLine free =>
      rw [quoted]
      exact quoted_shaped isQuote oneLine free

end Writes

namespace Condition

def written (condition : Condition) : String :=
  condition.column.label ++ " " ++ condition.comparison.keyword ++ " " ++ condition.raw

theorem written_to_list (condition : Condition) :
    condition.written.toList =
      condition.column.label.toList ++
        ' ' :: (condition.comparison.keyword.toList ++ ' ' :: condition.raw.toList) := by
  simp [written]

theorem label_ink (column : UserColumn) :
    ∀ c ∈ column.label.toList, Text.isBlank c = false :=
  Text.ink_of_all (by cases column <;> decide)

theorem keyword_ink (comparison : Comparison) :
    ∀ c ∈ comparison.keyword.toList, Text.isBlank c = false :=
  Text.ink_of_all (by cases comparison <;> decide)

theorem written_free (condition : Condition) :
    Text.occursIn separator (condition.written.toList ++ [' ']) = false := by
  rw [written_to_list]
  refine condition.writes.shaped.spaced_free (label_ink condition.column)
    (keyword_ink condition.comparison) fun more => ?_
  cases condition.comparison <;> rfl

end Condition

end QueryOptions.Agreement
