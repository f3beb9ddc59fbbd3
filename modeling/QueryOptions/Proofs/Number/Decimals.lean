import QueryOptions.Proofs.Number.Rounding

/-!
Decimals read as floating-point numbers. A number is read off a decimal by its value alone, however
many zeros its digits end in. A decimal that is the value of a number is read as this number.
-/

namespace QueryOptions.Binary64

theorem decimal_length_bounds {digits : Nat} (given : digits ≠ 0) :
    (10 : ℚ) ^ ((decimalLength digits : Int) - 1) ≤ digits ∧
      (digits : ℚ) < 10 ^ (decimalLength digits : Int) := by
  have length {count : Nat} (counted : 0 < count) :
      decimalLength digits ≤ count ↔ digits < 10 ^ count :=
    Nat.length_toDigits_le_iff (by decide) counted
  have counted : 0 < decimalLength digits := List.length_pos_of_ne_nil Nat.toDigits_ne_nil
  constructor
  · have least : 10 ^ (decimalLength digits - 1) ≤ digits := by
      by_cases one : decimalLength digits = 1
      · rw [one]
        exact Nat.pos_of_ne_zero given
      · refine Nat.le_of_not_lt fun below => ?_
        have shorter : decimalLength digits ≤ decimalLength digits - 1 :=
          (length (by omega)).mpr below
        omega
    rw [← Nat.cast_pred counted, zpow_natCast]
    exact_mod_cast least
  · rw [zpow_natCast]
    exact_mod_cast (length counted).mp le_rfl

/-- The decimal exponent of the first power of ten above a decimal. -/
def magnitude (digits : Nat) (exponent : Int) : Int := exponent + decimalLength digits

theorem magnitude_bounds {digits : Nat} (given : digits ≠ 0) (exponent : Int) :
    (10 : ℚ) ^ (magnitude digits exponent - 1) ≤ digits * 10 ^ exponent ∧
      (digits : ℚ) * 10 ^ exponent < 10 ^ magnitude digits exponent := by
  obtain ⟨least, most⟩ := decimal_length_bounds given
  have ten : (10 : ℚ) ≠ 0 := by norm_num
  have down : magnitude digits exponent - 1 = decimalLength digits - 1 + exponent := by
    unfold magnitude
    ring
  rw [down, magnitude, add_comm exponent, zpow_add₀ ten, zpow_add₀ ten]
  constructor
  · gcongr
  · gcongr

theorem power_le_iff {digits : Nat} (given : digits ≠ 0) (exponent bound : Int) :
    (10 : ℚ) ^ bound ≤ digits * 10 ^ exponent ↔ bound < magnitude digits exponent := by
  obtain ⟨least, most⟩ := magnitude_bounds given exponent
  have base : (1 : ℚ) < 10 := by norm_num
  constructor
  · intro above
    exact (zpow_lt_zpow_iff_right₀ base).mp (above.trans_lt most)
  · intro above
    exact ((zpow_le_zpow_iff_right₀ base).mpr (by omega)).trans least

theorem magnitude_congr {digits otherDigits : Nat} {exponent otherExponent : Int}
    (given : digits ≠ 0) (otherGiven : otherDigits ≠ 0)
    (same : (digits : ℚ) * 10 ^ exponent = otherDigits * 10 ^ otherExponent) :
    magnitude digits exponent = magnitude otherDigits otherExponent := by
  have bounds (bound : Int) := power_le_iff given exponent bound
  simp only [same, power_le_iff otherGiven] at bounds
  have atMost := bounds (magnitude digits exponent)
  have atLeast := bounds (magnitude otherDigits otherExponent)
  omega

theorem decimal_eq_zero_iff (digits : Nat) (exponent : Int) :
    (digits : ℚ) * 10 ^ exponent = 0 ↔ digits = 0 := by
  have power : (10 : ℚ) ^ exponent ≠ 0 := by positivity
  rw [mul_eq_zero, or_iff_left power, Nat.cast_eq_zero]

theorem ratio_of_decimal (digits : Nat) (exponent : Int) :
    ∃ numerator denominator : Nat, 0 < denominator ∧
      (numerator : ℚ) / denominator = digits * 10 ^ exponent := by
  by_cases upwards : 0 ≤ exponent
  · refine ⟨digits * Nat.pow 10 exponent.toNat, 1, Nat.one_pos, ?_⟩
    rw [Nat.cast_mul, power_upwards 10 upwards]
    norm_num
  · refine ⟨digits, Nat.pow 10 (-exponent).toNat, Nat.pow_pos (by decide), ?_⟩
    rw [power_downwards 10 upwards]
    norm_num

section Readings

variable (negative : Bool) {digits : Nat} {exponent : Int}

theorem of_decimal_eq {numerator denominator : Nat} (positive : 0 < denominator)
    (same : (numerator : ℚ) / denominator = digits * 10 ^ exponent) :
    ofDecimal negative digits exponent =
      if digits = 0 ∨ magnitude digits exponent < -400 then .finite negative 0 leastExponent
      else if 400 < magnitude digits exponent then .infinite negative
      else ofRatio negative numerator denominator := by
  have ratio : (if 0 ≤ exponent then ofRatio negative (digits * Nat.pow 10 exponent.toNat) 1
      else ofRatio negative digits (Nat.pow 10 (-exponent).toNat)) =
      ofRatio negative numerator denominator := by
    split
    · rename_i upwards
      refine of_ratio_congr Nat.one_pos positive ?_ negative
      rw [same, Nat.cast_mul, power_upwards 10 upwards]
      norm_num
    · rename_i downwards
      have power : 0 < Nat.pow 10 (-exponent).toNat := Nat.pow_pos (by decide)
      refine of_ratio_congr power positive ?_ negative
      rw [same, power_downwards 10 downwards]
      norm_num
  unfold ofDecimal magnitude
  rw [ratio]
  simp only [Bool.or_eq_true, decide_eq_true_eq]

theorem of_decimal_congr {otherDigits : Nat} {otherExponent : Int}
    (same : (digits : ℚ) * 10 ^ exponent = otherDigits * 10 ^ otherExponent) :
    ofDecimal negative digits exponent = ofDecimal negative otherDigits otherExponent := by
  obtain ⟨numerator, denominator, positive, exactly⟩ := ratio_of_decimal digits exponent
  rw [of_decimal_eq negative positive exactly,
    of_decimal_eq negative positive (exactly.trans same)]
  have zero : digits = 0 ↔ otherDigits = 0 := by
    rw [← decimal_eq_zero_iff digits exponent, same, decimal_eq_zero_iff]
  by_cases given : digits = 0
  · rw [if_pos (.inl given), if_pos (.inl (zero.mp given))]
  · rw [magnitude_congr given (mt zero.mpr given) same]
    simp only [zero]

theorem of_decimal_is_read (digits : Nat) (exponent : Int) :
    IsRead negative (ofDecimal negative digits exponent) := by
  obtain ⟨numerator, denominator, positive, exactly⟩ := ratio_of_decimal digits exponent
  rw [of_decimal_eq negative positive exactly]
  split
  · exact zero_is_read negative
  · split
    · exact .infinite
    · exact of_ratio_is_read negative positive

theorem of_decimal_with_sign (digits : Nat) (exponent : Int) :
    ofDecimal negative digits exponent =
      (ofDecimal false digits exponent).withSign negative := by
  obtain ⟨numerator, denominator, positive, exactly⟩ := ratio_of_decimal digits exponent
  rw [of_decimal_eq negative positive exactly, of_decimal_eq false positive exactly]
  split
  · rfl
  · split
    · rfl
    · exact of_ratio_with_sign negative _ _

/-- A decimal with the value of a number in the one form is read as this number: such values are
well between the bounds of the magnitude. -/
theorem of_decimal_exact {significand : Nat} {power : Int}
    (canonical : IsCanonical significand power) (given : significand ≠ 0)
    (same : (digits : ℚ) * 10 ^ exponent = significand * 2 ^ power) :
    ofDecimal negative digits exponent = .finite negative significand power := by
  obtain ⟨least, most⟩ := canonical.between given
  rw [← same] at least most
  have digitsGiven : digits ≠ 0 := by
    rw [Ne, ← decimal_eq_zero_iff digits exponent]
    exact ((zpow_pos (by norm_num) (-401)).trans_le least).ne'
  have bounds := power_le_iff digitsGiven exponent
  have notSmall := (bounds (-401)).mp least
  have notLarge := mt (bounds 400).mpr (not_le.mpr most)
  obtain ⟨numerator, denominator, positive, exactly⟩ := ratio_of_decimal digits exponent
  rw [of_decimal_eq negative positive exactly, if_neg (by omega), if_neg notLarge]
  exact of_ratio_exact canonical positive (exactly.trans same) negative

end Readings

end QueryOptions.Binary64
