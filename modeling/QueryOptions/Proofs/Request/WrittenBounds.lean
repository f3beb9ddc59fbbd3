import Mathlib.Algebra.Group.Nat.Defs
import Mathlib.Data.List.Induction
import QueryOptions.Proofs.Request.Bounds
import QueryOptions.Proofs.Request.Literals
import QueryOptions.Proofs.Text.Trimming

/-!
Bounds read back. A bound that is written in decimal is read as the same number as long as it has no
more digits than an integer may have, and no bound that is read has more.
-/

namespace QueryOptions

namespace Text

theorem ascii_digit_value {c : Char} (digit : c.isDigit = true) :
    digitValue? c = some (c.toNat - 0x30) := by
  have range : 0x30 ≤ c.toNat ∧ c.toNat ≤ 0x39 := by
    simpa [Char.isDigit, UInt32.le_iff_toNat_le] using digit
  unfold digitValue? zeroCodes
  rw [List.find?_cons_of_pos (by simp; omega)]
  rfl

theorem digit_value_small {c : Char} {value : Nat} (found : digitValue? c = some value) :
    value < 10 := by
  obtain ⟨first, known, rfl⟩ := Option.map_eq_some_iff.mp found
  have within := List.find?_some known
  simp only [Bool.and_eq_true, decide_eq_true_eq] at within
  omega

theorem digits_value_append (digits : List Char) (last : Char) :
    digitsValue (digits ++ [last]) = digitsValue digits * 10 + (digitValue? last).getD 0 := by
  unfold digitsValue
  rw [List.foldl_append, List.foldl_cons, List.foldl_nil]

theorem digits_value_small (digits : List Char) : digitsValue digits < 10 ^ digits.length := by
  induction digits using List.reverseRecOn with
  | nil => decide
  | append_singleton digits last induction =>
      have lastSmall : (digitValue? last).getD 0 < 10 := by
        cases found : digitValue? last with
        | none => decide
        | some value => exact digit_value_small found
      rw [digits_value_append, List.length_append, List.length_singleton, Nat.pow_succ]
      omega

theorem digits_value_of_decimal (number : Nat) : digitsValue (Nat.toDigits 10 number) = number := by
  have sameSteps : ∀ (digits : List Char) (start : Nat), (∀ c ∈ digits, c.isDigit = true) →
      digits.foldl (fun value c => value * 10 + (digitValue? c).getD 0) start =
        Nat.ofDigitChars 10 digits start := by
    intro digits
    induction digits with
    | nil => exact fun _ _ => rfl
    | cons c digits induction =>
        intro start all
        rw [List.foldl_cons, ascii_digit_value (all c List.mem_cons_self),
          induction _ fun d member => all d (List.mem_cons_of_mem c member), Nat.mul_comm]
        rfl
  have all : ∀ c ∈ Nat.toDigits 10 number, c.isDigit = true := fun c member =>
    Nat.isDigit_of_mem_toDigits (by decide) (by decide) member
  unfold digitsValue
  rw [sameSteps _ 0 all, Nat.ofDigitChars_ten_toDigits]

theorem decimal_digits (number : Nat) : ∀ c ∈ Nat.toDigits 10 number, isDigit c = true := by
  intro c member
  rw [isDigit, ascii_digit_value (Nat.isDigit_of_mem_toDigits (by decide) (by decide) member)]
  rfl

end Text

theorem IntegerTooLong.bound_positive : (0 : Int) < (10 ^ limit : Nat) :=
  Int.natCast_pos.mpr (Nat.pow_pos (by decide))

namespace Page

theorem grouped_digits_self {digits : List Char} (given : digits ≠ [])
    (all : ∀ c ∈ digits, Text.isDigit c = true) : groupedDigits? digits = some digits := by
  induction digits with
  | nil => exact absurd rfl given
  | cons c digits induction =>
      have first := all c List.mem_cons_self
      cases digits with
      | nil => rw [groupedDigits?, if_pos first]
      | cons next rest =>
          have nextDigit := all next (by simp)
          have noGroup : next ≠ '_' := by
            rintro rfl
            exact absurd nextDigit (by decide)
          have others := induction (List.cons_ne_nil next rest) fun d member =>
            all d (List.mem_cons_of_mem c member)
          rw [groupedDigits?, if_neg (by simp [first]), if_neg noGroup, others]
          rfl

theorem read_unsigned {text : List Char} (trimmed : Text.trim text = text)
    (noMinus : text.head? ≠ some '-') (noPlus : text.head? ≠ some '+') :
    readInteger? text =
      (groupedDigits? text).bind fun digits =>
        if IntegerTooLong.limit < digits.length then none
        else some (Text.digitsValue digits : Int) := by
  unfold readInteger?
  rw [trimmed]
  split
  rename_i negative body signed
  split at signed
  · exact absurd rfl noMinus
  · exact absurd rfl noPlus
  · cases signed
    cases groupedDigits? text <;> rfl

theorem read_decimal (number : Nat) :
    readInteger? (Nat.toDigits 10 number) =
      if number < 10 ^ IntegerTooLong.limit then some (number : Int) else none := by
  have all := Text.decimal_digits number
  have given : Nat.toDigits 10 number ≠ [] := Nat.toDigits_ne_nil
  have trimmed : Text.trim (Nat.toDigits 10 number) = Nat.toDigits 10 number :=
    (Text.IsTrimmed.of_ink given fun c member => Text.digit_not_blank (all c member)).trim
  have noSign (sign : Char) (other : Text.isDigit sign = false) :
      (Nat.toDigits 10 number).head? ≠ some sign := by
    intro opens
    rw [all sign (List.mem_of_mem_head? opens)] at other
    cases other
  have length : IntegerTooLong.limit < (Nat.toDigits 10 number).length ↔
      ¬number < 10 ^ IntegerTooLong.limit := by
    rw [← Nat.length_toDigits_le_iff (by decide) (by decide), Nat.not_le]
  rw [read_unsigned trimmed (noSign '-' (by decide)) (noSign '+' (by decide)),
    grouped_digits_self given all, Option.bind_some, Text.digits_value_of_decimal]
  by_cases short : number < 10 ^ IntegerTooLong.limit
  · rw [if_pos short, if_neg fun long => length.mp long short]
  · rw [if_neg short, if_pos (length.mpr short)]

theorem bound_written (number : Nat) :
    bound (.text (toString (number : Int))) =
      if number < 10 ^ IntegerTooLong.limit then (number : Int) else 0 := by
  have digits : (toString (number : Int)).toList = Nat.toDigits 10 number := by
    change (Nat.repr number).toList = _
    rw [Nat.repr_eq_ofList_toDigits, String.toList_ofList]
  unfold bound
  simp only [Value.plainText, digits, read_decimal]
  split
  · exact Int.max_eq_right (Int.natCast_nonneg number)
  · rfl

theorem read_integer_small {text : List Char} {value : Int}
    (read : readInteger? text = some value) : value < (10 ^ IntegerTooLong.limit : Nat) := by
  unfold readInteger? at read
  split at read
  rename_i negative body signed
  cases digits : groupedDigits? body with
  | none => rw [digits] at read; cases read
  | some run =>
      rw [digits] at read
      dsimp only at read
      split at read
      · cases read
      · rename_i fits
        have small : Text.digitsValue run < 10 ^ IntegerTooLong.limit :=
          Nat.lt_of_lt_of_le (Text.digits_value_small run)
            (Nat.pow_le_pow_right (by decide) (Nat.le_of_not_lt fits))
        cases read
        split <;> omega

theorem bound_small (value : Value) : bound value < (10 ^ IntegerTooLong.limit : Nat) := by
  have positive := IntegerTooLong.bound_positive
  have fallback (text : List Char) :
      max 0 ((readInteger? text).getD 0) < (10 ^ IntegerTooLong.limit : Nat) := by
    cases read : readInteger? text with
    | none =>
        rw [Option.getD_none]
        omega
    | some number =>
        have small := read_integer_small read
        rw [Option.getD_some]
        omega
  unfold bound
  split
  · omega
  · omega
  · exact fallback _

end Page

end QueryOptions
