import Mathlib.Data.List.TakeWhile
import QueryOptions.Literal
import QueryOptions.Text.Blank

/-!
How numbers are written. A numeral is a run of digits with an optional minus sign before it and an
optional point in it; it is read back from the text that writes it, and what is read as neither a
text nor a name is such a text. No digit of any script is a blank.
-/

namespace QueryOptions

namespace Text

def isBlankCode (code : Nat) : Bool :=
  (0x09 ≤ code && code ≤ 0x0d) || (0x1c ≤ code && code ≤ 0x20) || code == 0x85 || code == 0xa0 ||
    code == 0x1680 || (0x2000 ≤ code && code ≤ 0x200a) || code == 0x2028 || code == 0x2029 ||
    code == 0x202f || code == 0x205f || code == 0x3000

theorem blank_of_code (c : Char) : isBlank c = isBlankCode c.toNat := rfl

theorem digit_code {c : Char} (digit : isDigit c = true) :
    ∃ first ∈ zeroCodes, first ≤ c.toNat ∧ c.toNat < first + 10 := by
  unfold isDigit digitValue? at digit
  rw [Option.isSome_map] at digit
  obtain ⟨first, found⟩ := Option.isSome_iff_exists.mp digit
  refine ⟨first, List.mem_of_find?_eq_some found, ?_⟩
  have within := List.find?_some found
  simpa using within

theorem digit_not_blank {c : Char} (digit : isDigit c = true) : isBlank c = false := by
  have table : ∀ first ∈ zeroCodes, ∀ offset < 10, isBlankCode (first + offset) = false := by
    decide +kernel
  obtain ⟨first, known, lower, upper⟩ := digit_code digit
  have offset := table first known (c.toNat - first) (by omega)
  rwa [Nat.add_sub_cancel' lower, ← blank_of_code] at offset

end Text

namespace Literal

def signed (negative : Bool) (digits : List Char) : List Char :=
  if negative then '-' :: digits else digits

theorem signed_cases (negative : Bool) (digits : List Char) :
    signed negative digits = digits ∨ signed negative digits = '-' :: digits := by
  cases negative with
  | false => exact .inl rfl
  | true => exact .inr rfl

namespace PlainNumeral

def written (numeral : PlainNumeral) : List Char :=
  signed numeral.negative (numeral.whole ++ numeral.fraction.elim [] ('.' :: ·))

/-- What it takes for a numeral to be read: digits on either side of the point, and at least one of
them. -/
structure IsProper (numeral : PlainNumeral) : Prop where
  whole : ∀ c ∈ numeral.whole, Text.isDigit c = true
  fraction : ∀ fraction, numeral.fraction = some fraction → ∀ c ∈ fraction, Text.isDigit c = true
  given : numeral.whole ≠ [] ∨ ∃ fraction, numeral.fraction = some fraction ∧ fraction ≠ []

theorem of_read {raw : List Char} {numeral : PlainNumeral} (read : read? raw = some numeral) :
    raw = numeral.written ∧ numeral.IsProper := by
  unfold read? at read
  split at read
  rename_i negative body origin
  have whole : raw = signed negative body := by
    split at origin <;> cases origin <;> rfl
  have parts := List.takeWhile_append_dropWhile (p := Text.isDigit) (l := body)
  have digits : ∀ c ∈ body.takeWhile Text.isDigit, Text.isDigit c = true := fun c member =>
    List.mem_takeWhile_imp member
  dsimp only at read
  split at read
  · rename_i nothing
    split at read
    · cases read
    · rename_i given
      cases read
      rw [nothing] at parts
      exact ⟨whole.trans (congrArg (signed negative) parts.symm), digits, by simp,
        .inl (by simpa using given)⟩
  · rename_i fraction behind
    split at read
    · rename_i proper
      cases read
      rw [Bool.and_eq_true, List.all_eq_true] at proper
      rw [behind] at parts
      refine ⟨whole.trans (congrArg (signed negative) parts.symm), digits, ?_, ?_⟩
      · rintro _ ⟨⟩
        exact proper.1
      · by_cases given : body.takeWhile Text.isDigit = []
        · refine .inr ⟨fraction, rfl, ?_⟩
          simpa [given] using proper.2
        · exact .inl given
    · cases read
  · cases read

theorem whole_written (numeral : PlainNumeral) (whole : numeral.fraction = none) :
    numeral.written = signed numeral.negative numeral.whole := by
  rw [written, whole, Option.elim_none, List.append_nil]

section Proper

variable {numeral : PlainNumeral} (proper : numeral.IsProper)

include proper

theorem IsProper.chars : ∀ c ∈ numeral.written, Text.isDigit c = true ∨ c = '-' ∨ c = '.' := by
  obtain ⟨negative, whole, fraction?⟩ := numeral
  have body : ∀ c ∈ whole ++ fraction?.elim [] ('.' :: ·), Text.isDigit c = true ∨ c = '.' := by
    intro c member
    rcases List.mem_append.mp member with inWhole | inFraction
    · exact .inl (proper.whole c inWhole)
    · cases fraction? with
      | none => cases inFraction
      | some fraction =>
          rcases List.mem_cons.mp inFraction with rfl | digit
          · exact .inr rfl
          · exact .inl (proper.fraction fraction rfl c digit)
  intro c member
  cases negative with
  | false => exact (body c member).imp_right .inr
  | true =>
      rcases List.mem_cons.mp member with rfl | inBody
      · exact .inr (.inl rfl)
      · exact (body c inBody).imp_right .inr

theorem IsProper.body_opens : ∃ first rest,
    numeral.whole ++ numeral.fraction.elim [] ('.' :: ·) = first :: rest ∧ first ≠ '-' := by
  obtain ⟨negative, whole, fraction?⟩ := numeral
  cases whole with
  | cons first rest =>
      refine ⟨first, rest ++ fraction?.elim [] ('.' :: ·), rfl, ?_⟩
      rintro rfl
      exact absurd (proper.whole '-' List.mem_cons_self) (by decide)
  | nil =>
      obtain absent | ⟨fraction, rfl, _⟩ := proper.given
      · exact absurd rfl absent
      · exact ⟨'.', fraction, rfl, by decide⟩

theorem IsProper.body_parts :
    (numeral.whole ++ numeral.fraction.elim [] ('.' :: ·)).takeWhile Text.isDigit =
        numeral.whole ∧
      (numeral.whole ++ numeral.fraction.elim [] ('.' :: ·)).dropWhile Text.isDigit =
        numeral.fraction.elim [] ('.' :: ·) := by
  rw [List.takeWhile_append_of_pos proper.whole, List.dropWhile_append_of_pos proper.whole]
  cases numeral.fraction with
  | none => exact ⟨List.append_nil _, rfl⟩
  | some fraction =>
      rw [Option.elim_some, List.takeWhile_cons_of_neg (by decide),
        List.dropWhile_cons_of_neg (by decide)]
      exact ⟨List.append_nil _, rfl⟩

theorem IsProper.opens : ∃ first rest, numeral.written = first :: rest ∧
    (Text.isDigit first = true ∨ first = '-' ∨ first = '.') := by
  obtain ⟨first, rest, parts⟩ : ∃ first rest, numeral.written = first :: rest := by
    obtain ⟨first, rest, opens, _⟩ := proper.body_opens
    unfold written signed
    split
    · exact ⟨_, _, rfl⟩
    · exact ⟨first, rest, opens⟩
  exact ⟨first, rest, parts, proper.chars first (parts ▸ List.mem_cons_self)⟩

theorem IsProper.read : read? numeral.written = some numeral := by
  obtain ⟨first, rest, opens, unsigned⟩ := proper.body_opens
  obtain ⟨taken, dropped⟩ := proper.body_parts
  have given := proper.given
  have digits := proper.fraction
  rw [opens] at taken dropped
  rw [written, opens]
  obtain ⟨negative, whole, fraction?⟩ := numeral
  dsimp only at taken dropped given digits ⊢
  cases fraction? with
  | none =>
      have inWhole : whole ≠ [] := by simpa using given
      rw [Option.elim_none] at dropped
      cases negative <;> simp [signed, read?, taken, dropped, unsigned, inWhole]
  | some fraction =>
      have somewhere : whole = [] → fraction ≠ [] := by simpa [or_iff_not_imp_left] using given
      rw [Option.elim_some] at dropped
      cases negative <;>
        simpa [signed, read?, taken, dropped, unsigned] using ⟨digits fraction rfl, somewhere⟩

end Proper

end PlainNumeral

def openings : List Char := ['\'', '"', 't', 'f', 'n']

theorem numeral_opens_plain {first : Char}
    (opens : Text.isDigit first = true ∨ first = '-' ∨ first = '.') : first ∉ openings := by
  unfold openings
  simp only [List.mem_cons, List.not_mem_nil, or_false]
  rintro (rfl | rfl | rfl | rfl | rfl) <;> revert opens <;> decide

/-- A text that opens neither a quotation nor a name is a numeral or stands for itself. -/
theorem of_raw_of_opens {first : Char} (plain : first ∉ openings) (rest : List Char) :
    ofRaw (String.ofList (first :: rest)) =
      match PlainNumeral.read? (first :: rest) with
      | some numeral => numeral.value
      | none => .ok (.text (String.ofList (first :: rest))) := by
  have apart {letter : Char} (opening : letter ∈ openings) : first ≠ letter := by
    rintro rfl
    exact plain opening
  have noWord (word : String) {letter : Char} (opened : word.toList.head? = some letter)
      (opening : letter ∈ openings) : String.ofList (first :: rest) ≠ word := by
    rintro rfl
    rw [String.toList_ofList] at opened
    exact apart opening (Option.some.inj opened)
  have quote : first ≠ '\'' := apart (by decide)
  have doubleQuote : first ≠ '"' := apart (by decide)
  have unquoted : unquoted? (first :: rest) = none := by simp [unquoted?, quote, doubleQuote]
  have noTrue := noWord "true" rfl (by decide)
  have noFalse := noWord "false" rfl (by decide)
  have noNull := noWord "null" rfl (by decide)
  rw [ofRaw, String.toList_ofList, unquoted]
  exact (if_neg noTrue).trans ((if_neg noFalse).trans (if_neg noNull))

theorem numeral_of_raw (raw : String) (noText : ∀ text, ofRaw raw ≠ .ok (.text text))
    (noFlag : ∀ flag, ofRaw raw ≠ .ok (.boolean flag)) (noNull : ofRaw raw ≠ .ok .null) :
    ∃ numeral : PlainNumeral, numeral.IsProper ∧ raw.toList = numeral.written ∧
      ofRaw raw = numeral.value := by
  generalize outcome : ofRaw raw = result at *
  unfold ofRaw at outcome
  split at outcome
  · exact absurd outcome.symm (noText _)
  split at outcome
  · exact absurd outcome.symm (noFlag _)
  split at outcome
  · exact absurd outcome.symm (noFlag _)
  split at outcome
  · exact absurd outcome.symm noNull
  split at outcome
  · rename_i numeral read
    obtain ⟨written, proper⟩ := PlainNumeral.of_read read
    exact ⟨numeral, proper, written, outcome.symm⟩
  · exact absurd outcome.symm (noText _)

theorem of_raw_numeral {numeral : PlainNumeral} (proper : numeral.IsProper) :
    ofRaw (String.ofList numeral.written) = numeral.value := by
  have read := proper.read
  obtain ⟨first, rest, parts, opens⟩ := proper.opens
  rw [parts] at read ⊢
  rw [of_raw_of_opens (numeral_opens_plain opens), read]

end Literal

end QueryOptions
