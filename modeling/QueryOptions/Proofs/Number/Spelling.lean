import QueryOptions.Proofs.Number.Shortest
import QueryOptions.Proofs.Request.Numerals

/-!
How literals are spelled and read again. The text of an integer, a boolean or null is a literal of
the same value, and so is the text of a floating-point number as long as it has a point and no
exponent mark. The syntax of literals knows no exponent marks, so the text of a number that is very
small, very large or infinite is read as a text.
-/

namespace QueryOptions

namespace Text

theorem digits_value_trailing_zeros (digits : List Char) (count : Nat) :
    digitsValue (digits ++ List.replicate count '0') = digitsValue digits * 10 ^ count := by
  have zero : (digitValue? '0').getD 0 = 0 := by decide
  induction count with
  | zero => simp
  | succ count induction =>
      rw [List.replicate_succ', ← List.append_assoc, digits_value_append, induction, zero, pow_succ]
      ring

theorem digits_value_leading_zeros (count : Nat) (digits : List Char) :
    digitsValue (List.replicate count '0' ++ digits) = digitsValue digits := by
  have zero : 0 * 10 + (digitValue? '0').getD 0 = 0 := by decide
  unfold digitsValue
  induction count with
  | zero => rfl
  | succ count induction =>
      rw [List.replicate_succ, List.cons_append, List.foldl_cons, zero, induction]

end Text

namespace DecimalLayout

theorem positional_parts {digits : List Char} (given : digits ≠ [])
    (all : ∀ c ∈ digits, Text.isDigit c = true) (leading : Int) :
    ∃ whole fraction, positional digits leading = whole ++ '.' :: fraction ∧ whole ≠ [] ∧
      (∀ c ∈ whole ++ fraction, Text.isDigit c = true) ∧
      (Text.digitsValue (whole ++ fraction) : ℚ) * 10 ^ (-(fraction.length : Int)) =
        Text.digitsValue digits * 10 ^ (leading + 1 - digits.length) := by
  have zero : Text.isDigit '0' = true := by decide
  have zeros (count : Nat) : ∀ c ∈ List.replicate count '0', Text.isDigit c = true := by
    intro c member
    rw [List.eq_of_mem_replicate member]
    exact zero
  unfold positional
  split
  · rename_i negative
    refine ⟨['0'], List.replicate (-leading - 1).toNat '0' ++ digits, rfl, List.cons_ne_nil _ _,
      ?_, ?_⟩
    · simp only [List.singleton_append, List.forall_mem_cons, List.forall_mem_append]
      exact ⟨zero, zeros _, all⟩
    · have value : Text.digitsValue (['0'] ++ (List.replicate (-leading - 1).toNat '0' ++ digits)) =
          Text.digitsValue digits := by
        rw [← List.append_assoc]
        exact Text.digits_value_leading_zeros ((-leading - 1).toNat + 1) digits
      rw [value, List.length_append, List.length_replicate]
      congr 2
      omega
  · rename_i positive
    dsimp only
    split
    · rename_i short
      refine ⟨digits ++ List.replicate (leading.toNat + 1 - digits.length) '0', ['0'], rfl,
        by simp [given], ?_, ?_⟩
      · simp only [List.forall_mem_append, List.forall_mem_singleton]
        exact ⟨⟨all, zeros _⟩, zero⟩
      · have value : Text.digitsValue
            (digits ++ List.replicate (leading.toNat + 1 - digits.length) '0' ++ ['0']) =
            Text.digitsValue digits * 10 ^ (leading.toNat + 1 - digits.length + 1) := by
          rw [List.append_assoc, ← List.replicate_succ', Text.digits_value_trailing_zeros]
        have power : (leading + 1 - digits.length : Int) =
            ((leading.toNat + 1 - digits.length + 1 : Nat) : Int) + -1 := by omega
        rw [value, power, zpow_add₀ (by norm_num : (10 : ℚ) ≠ 0), zpow_natCast,
          List.length_singleton, Nat.cast_one, Nat.cast_mul, Nat.cast_pow, Nat.cast_ofNat,
          mul_assoc]
    · rename_i long
      refine ⟨digits.take (leading.toNat + 1), digits.drop (leading.toNat + 1), rfl, ?_, ?_, ?_⟩
      · simp [given]
      · rwa [List.take_append_drop]
      · rw [List.take_append_drop, List.length_drop]
        congr 2
        omega

end DecimalLayout

namespace Literal

theorem of_raw_point (negative : Bool) {whole fraction : List Char} (given : whole ≠ [])
    (all : ∀ c ∈ whole ++ fraction, Text.isDigit c = true) :
    ofRaw (String.ofList (signed negative (whole ++ '.' :: fraction))) =
      .ok (.real (.ofDecimal negative (Text.digitsValue (whole ++ fraction))
        (-fraction.length))) := by
  have proper : PlainNumeral.IsProper ⟨negative, whole, some fraction⟩ := by
    refine ⟨fun c member => all c (List.mem_append_left _ member), ?_, .inl given⟩
    rintro _ ⟨⟩ c member
    exact all c (List.mem_append_right _ member)
  have read := of_raw_numeral proper
  rw [PlainNumeral.written, PlainNumeral.value] at read
  exact read

/-- A text with a character that belongs to no numeral is read as it stands, unless it opens a
quotation or a name. -/
theorem of_raw_foreign (negative : Bool) {first : Char} {rest : List Char}
    (plain : first ∉ openings) (foreign : Char) (member : foreign ∈ first :: rest)
    (noNumeral : ¬(Text.isDigit foreign = true ∨ foreign = '-' ∨ foreign = '.')) :
    ofRaw (String.ofList (signed negative (first :: rest))) =
      .ok (.text (String.ofList (signed negative (first :: rest)))) := by
  have unread (text : List Char) (member : foreign ∈ text) : PlainNumeral.read? text = none := by
    refine Option.eq_none_iff_forall_ne_some.mpr fun numeral read => noNumeral ?_
    obtain ⟨rfl, proper⟩ := PlainNumeral.of_read read
    exact proper.chars foreign member
  cases negative with
  | false =>
      have opens := of_raw_of_opens plain rest
      rwa [unread _ member] at opens
  | true =>
      have sign : '-' ∉ openings := by decide
      have opens := of_raw_of_opens sign (first :: rest)
      rwa [unread _ (List.mem_cons_of_mem _ member)] at opens

end Literal

section Texts

open Binary64 (IsCanonical magnitude)

/-- A number that is written with a point and no exponent mark: zero, or a number from `10 ^ -4` to
below `10 ^ 16`. -/
def Binary64.IsPositional : Binary64 → Prop
  | .finite _ significand exponent => significand = 0 ∨
      (10 : ℚ) ^ (-4 : Int) ≤ significand * 2 ^ exponent ∧
        (significand : ℚ) * 2 ^ exponent < 10 ^ (16 : Int)
  | _ => False

theorem Binary64.text_of_finite (negative : Bool) (significand : Nat) (exponent : Int) :
    (Binary64.finite negative significand exponent).text =
      String.ofList (Literal.signed negative (if significand = 0 then ['0', '.', '0']
        else DecimalLayout.plain.unsigned (Decimal.shortest significand exponent))) := by
  unfold Binary64.text DecimalLayout.render Literal.signed
  cases negative <;> rfl

variable {significand : Nat} {exponent : Int} {decimal : Decimal}
  (writes : decimal.Writes significand exponent)

include writes

theorem Decimal.Writes.positional_iff :
    (DecimalLayout.plain.leastPositional ≤ magnitude decimal.digits decimal.exponent - 1 ∧
      magnitude decimal.digits decimal.exponent - 1 < DecimalLayout.plain.firstScientific) ↔
    (10 : ℚ) ^ (-4 : Int) ≤ significand * 2 ^ exponent ∧
      (significand : ℚ) * 2 ^ exponent < 10 ^ (16 : Int) := by
  have least := not_congr writes.below_minus_four
  have atLeast := Binary64.power_le_iff writes.digits_given decimal.exponent (-4)
  have below := not_congr (Binary64.power_le_iff writes.digits_given decimal.exponent 16)
  rw [not_lt, not_lt] at least
  rw [not_le] at below
  rw [← least, ← writes.below_sixteen, Decimal.value, atLeast, below]
  have leastPositional : DecimalLayout.plain.leastPositional = -4 := rfl
  have firstScientific : DecimalLayout.plain.firstScientific = 16 := rfl
  omega

theorem Decimal.Writes.positional_reads (negative : Bool) :
    Literal.ofRaw (String.ofList (Literal.signed negative (DecimalLayout.positional
        (DecimalLayout.digitText decimal.digits)
        (magnitude decimal.digits decimal.exponent - 1)))) =
      .ok (.real (.finite negative significand exponent)) := by
  obtain ⟨whole, fraction, parts, given, all, value⟩ := DecimalLayout.positional_parts
    Nat.toDigits_ne_nil (Text.decimal_digits decimal.digits)
    (magnitude decimal.digits decimal.exponent - 1)
  have power : magnitude decimal.digits decimal.exponent - 1 + 1 -
      (Nat.toDigits 10 decimal.digits).length = decimal.exponent := by
    unfold magnitude Binary64.decimalLength
    omega
  rw [Text.digits_value_of_decimal, power] at value
  rw [DecimalLayout.digitText, parts, Literal.of_raw_point negative given all,
    Binary64.of_decimal_congr negative value, Binary64.of_decimal_with_sign, writes.reads]
  rfl

omit writes in
theorem DecimalLayout.unsigned_eq (layout : DecimalLayout) (decimal : Decimal) :
    layout.unsigned decimal =
      if layout.leastPositional ≤ magnitude decimal.digits decimal.exponent - 1 ∧
          magnitude decimal.digits decimal.exponent - 1 < layout.firstScientific then
        positional (digitText decimal.digits) (magnitude decimal.digits decimal.exponent - 1)
      else
        layout.scientific (digitText decimal.digits)
          (magnitude decimal.digits decimal.exponent - 1) := rfl

omit writes in
/-- An exponent mark makes a text of it. -/
theorem DecimalLayout.scientific_reads (layout : DecimalLayout) (negative : Bool) (digits : Nat)
    (leading : Int) :
    Literal.ofRaw (String.ofList
        (Literal.signed negative (layout.scientific (digitText digits) leading))) =
      .ok (.text (String.ofList
        (Literal.signed negative (layout.scientific (digitText digits) leading)))) := by
  obtain ⟨first, rest, parts⟩ := List.exists_cons_of_ne_nil
    (Nat.toDigits_ne_nil (n := digits) (b := 10))
  have digit : Text.isDigit first = true :=
    Text.decimal_digits digits first (parts ▸ List.mem_cons_self)
  have opens : layout.scientific (digitText digits) leading =
      first :: (layout.scientific (digitText digits) leading).tail := by
    unfold scientific digitText
    rw [parts]
    rfl
  have marked : 'e' ∈ layout.scientific (digitText digits) leading := by
    unfold scientific exponentText
    simp
  rw [opens] at marked ⊢
  exact Literal.of_raw_foreign negative (Literal.numeral_opens_plain (.inl digit)) 'e' marked
    (by decide)

end Texts

theorem Literal.of_raw_text_of_real {negative : Bool} {value : Binary64}
    (read : Binary64.IsRead negative value) :
    (value.IsPositional → ofRaw value.text = .ok (.real value)) ∧
      (¬value.IsPositional → ofRaw value.text = .ok (.text value.text)) := by
  cases read with
  | infinite =>
      refine ⟨False.elim, fun _ => ?_⟩
      have text : (Binary64.infinite negative).text =
          String.ofList (signed negative "inf".toList) := by
        cases negative <;> rfl
      rw [text]
      exact of_raw_foreign negative (by decide) 'i' (by decide) (by decide)
  | @finite significand exponent canonical =>
      rw [Binary64.text_of_finite]
      by_cases nothing : significand = 0
      · refine ⟨fun _ => ?_, fun beyond => absurd (.inl nothing) beyond⟩
        have digits : ∀ c ∈ ['0'] ++ ['0'], Text.isDigit c = true :=
          List.all_eq_true.mp (by decide)
        have zero := of_raw_point negative (List.cons_ne_nil '0' []) digits
        rw [if_pos nothing, nothing, canonical.of_zero nothing]
        exact zero.trans (by cases negative <;> rfl)
      · have writes := Decimal.shortest_writes canonical nothing
        have layout := writes.positional_iff
        rw [if_neg nothing, DecimalLayout.unsigned_eq]
        constructor
        · intro positional
          rw [if_pos (layout.mpr (positional.resolve_left nothing))]
          exact writes.positional_reads negative
        · intro beyond
          rw [if_neg fun within => beyond (.inr (layout.mp within))]
          exact DecimalLayout.scientific_reads _ _ _ _

/-- The text of a literal that is no text is read as the literal again, unless it has an exponent
mark or is that of infinity: these texts are read as they stand. -/
theorem Literal.spelling_reads_back_while_positional {raw : String} {literal : Literal}
    (read : ofRaw raw = .ok literal) (noText : ∀ text, literal ≠ .text text) :
    ((∀ value, literal = .real value → value.IsPositional) →
        ofRaw literal.asText = .ok literal) ∧
      ∀ value, literal = .real value → ¬value.IsPositional →
        ofRaw literal.asText = .ok (.text literal.asText) := by
  cases literal with
  | text text => exact absurd rfl (noText text)
  | integer number => exact ⟨fun _ => of_raw_decimal (integer_of_raw read), nofun⟩
  | boolean flag => exact ⟨fun _ => by cases flag <;> decide, nofun⟩
  | null => exact ⟨fun _ => by decide, nofun⟩
  | real value =>
      obtain ⟨negative, isRead⟩ := real_of_raw read
      obtain ⟨positional, beyond⟩ := of_raw_text_of_real isRead
      refine ⟨fun within => positional (within value rfl), ?_⟩
      rintro _ ⟨⟩ outside
      exact beyond outside

/-- Digits of another script and zeros at both ends are read back; one hundred thousandth is not. -/
theorem Literal.spelling_reads_back_while_positional_fractions :
    let twelve : Binary64 := .finite true 7036874417766400 (-49)
    let tiny : Binary64 := .finite false 5902958103587057 (-69)
    ofRaw "-0١2.50" = .ok (.real twelve) ∧ twelve.IsPositional ∧
      ofRaw (Literal.real twelve).asText = .ok (.real twelve) ∧
      ofRaw ".00001" = .ok (.real tiny) ∧ ¬tiny.IsPositional ∧
      ofRaw (Literal.real tiny).asText = .ok (.text (Literal.real tiny).asText) := by
  intro twelve tiny
  have readTwelve : ofRaw "-0١2.50" = .ok (.real twelve) := by decide +kernel
  have readTiny : ofRaw ".00001" = .ok (.real tiny) := by decide +kernel
  have within : twelve.IsPositional := .inr (by norm_num)
  have outside : ¬tiny.IsPositional := by
    rintro (nothing | ⟨least, _⟩)
    · exact absurd nothing (by decide)
    · norm_num at least
  have back := (spelling_reads_back_while_positional readTwelve (by simp)).1
  have beyond := (spelling_reads_back_while_positional readTiny (by simp)).2
  refine ⟨readTwelve, within, back ?_, readTiny, outside, beyond tiny rfl outside⟩
  rintro _ ⟨⟩
  exact within

/-- A number with many zeros behind its point is spelled with an exponent mark, and that is read as
a text. -/
theorem Literal.exponent_mark_is_not_read_back :
    ¬∀ raw literal, ofRaw raw = .ok literal → (∀ text, literal ≠ .text text) →
      ofRaw literal.asText = .ok literal := by
  intro always
  have tiny : ofRaw "0.00001" = .ok (.real (.finite false 5902958103587057 (-69))) := by
    decide +kernel
  have spelled : (Literal.real (.finite false 5902958103587057 (-69))).asText = "1e-05" := by
    decide +kernel
  have read : ofRaw "1e-05" = .ok (.text "1e-05") := by decide +kernel
  have again := always _ _ tiny (by simp)
  rw [spelled, read] at again
  cases again

end QueryOptions
