import QueryOptions.Proofs.Number.Decimals
import QueryOptions.Proofs.Request.Shape
import QueryOptions.Proofs.Request.WrittenBounds

/-!
What raw texts are read as. A text between equal quotes is read as it stands, and digits behind an
optional minus sign are read as a number and nothing else. Such a number is the only raw text that
cannot be read at all: it fails when it has too many digits, and it is an integer otherwise.
-/

namespace QueryOptions

theorem Text.digit_not_letter {c : Char} (digit : isDigit c = true) : c.isAlpha = false := by
  have table : ∀ first ∈ zeroCodes, ∀ offset < 10, (Char.ofNat (first + offset)).isAlpha = false := by
    decide +kernel
  obtain ⟨first, known, lower, upper⟩ := digit_code digit
  have offset := table first known (c.toNat - first) (by omega)
  rwa [Nat.add_sub_cancel' lower, Char.ofNat_toNat] at offset

namespace Literal

theorem unquoted_of_quote {quote : Char} (isQuote : quote = '\'' ∨ quote = '"')
    (inner : List Char) : unquoted? (quote :: (inner ++ [quote])) = some inner := by
  rcases isQuote with rfl | rfl <;> simp [unquoted?]

theorem of_raw_quoted {quote : Char} (isQuote : quote = '\'' ∨ quote = '"') (inner : String) :
    ofRaw (String.ofList (quote :: (inner.toList ++ [quote]))) = .ok (.text inner) := by
  rw [ofRaw, String.toList_ofList, unquoted_of_quote isQuote]
  simp

theorem of_raw_signed (negative : Bool) {digits : List Char} (given : digits ≠ [])
    (all : ∀ c ∈ digits, Text.isDigit c = true) :
    ofRaw (String.ofList (signed negative digits)) =
      PlainNumeral.value ⟨negative, digits, none⟩ := by
  rw [← of_raw_numeral ⟨all, by simp, .inl given⟩, PlainNumeral.whole_written _ rfl]

theorem real_of_raw {raw : String} {value : Binary64} (read : ofRaw raw = .ok (.real value)) :
    ∃ negative, Binary64.IsRead negative value := by
  obtain ⟨numeral, _, _, same⟩ := numeral_of_raw raw (by simp [read]) (by simp [read])
    (by simp [read])
  rw [same, PlainNumeral.value] at read
  split at read
  · split at read <;> cases read
  · cases read
    exact ⟨_, Binary64.of_decimal_is_read _ _ _⟩

theorem integer_of_raw {raw : String} {value : Int} (read : ofRaw raw = .ok (.integer value)) :
    (Nat.toDigits 10 value.natAbs).length ≤ IntegerTooLong.limit := by
  obtain ⟨numeral, _, _, same⟩ := numeral_of_raw raw (by simp [read]) (by simp [read])
    (by simp [read])
  rw [same, PlainNumeral.value] at read
  split at read
  · split at read
    · cases read
    · rename_i short
      have magnitude : value.natAbs = Text.digitsValue numeral.whole := by
        have same := Literal.integer.inj (Except.ok.inj read)
        rw [← same]
        split <;> simp
      rw [magnitude, Nat.length_toDigits_le_iff (by decide) (by decide)]
      exact (Text.digits_value_small numeral.whole).trans_le
        (Nat.pow_le_pow_right (by decide) (Nat.not_lt.mp short))
  · cases read

theorem of_raw_overlong {raw : String} (overlong : IsOverlong raw) :
    ∃ digits, IntegerTooLong.limit < digits ∧ ofRaw raw = .error ⟨digits⟩ := by
  obtain ⟨digits, written, all, tooLong⟩ := overlong
  have given : digits ≠ [] := by
    rintro rfl
    exact absurd tooLong (by decide)
  have fails (negative : Bool) (same : raw.toList = signed negative digits) :
      ofRaw raw = .error ⟨digits.length⟩ := by
    rw [← String.ofList_toList (s := raw), same,
      of_raw_signed negative given (List.all_eq_true.mp all), PlainNumeral.value]
    exact if_pos tooLong
  refine ⟨digits.length, tooLong, ?_⟩
  rcases written with plain | minus
  · exact fails false plain
  · exact fails true minus

theorem decimal_written (number : Int) :
    (toString number).toList = signed (number < 0) (Nat.toDigits 10 number.natAbs) := by
  have natural (magnitude : Nat) :
      (Nat.repr magnitude).toList = Nat.toDigits 10 magnitude := by
    rw [Nat.repr_eq_ofList_toDigits, String.toList_ofList]
  cases number with
  | ofNat magnitude =>
      have positive : ¬(Int.ofNat magnitude < 0) := Int.not_lt.mpr (Int.natCast_nonneg magnitude)
      change (Nat.repr magnitude).toList = _
      rw [natural, decide_eq_false positive]
      rfl
  | negSucc below =>
      change ("-" ++ Nat.repr (below + 1)).toList = _
      rw [String.toList_append, natural, decide_eq_true (Int.negSucc_lt_zero below)]
      rfl

theorem of_raw_decimal {number : Int}
    (fits : (Nat.toDigits 10 number.natAbs).length ≤ IntegerTooLong.limit) :
    ofRaw (toString number) = .ok (.integer number) := by
  have read := of_raw_signed (number < 0) Nat.toDigits_ne_nil (Text.decimal_digits number.natAbs)
  rw [← decimal_written, String.ofList_toList, PlainNumeral.value] at read
  dsimp only at read
  rw [if_neg (Nat.not_lt.mpr fits), Text.digits_value_of_decimal] at read
  rw [read]
  congr 2
  by_cases negative : number < 0
  · simp only [negative, decide_true, if_true]
    omega
  · simp only [negative, decide_false, Bool.false_eq_true, if_false]
    omega

end Literal

end QueryOptions
