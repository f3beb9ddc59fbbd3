import QueryOptions.Number.Decimal
import QueryOptions.Proofs.Number.Decimals

/-!
The decimal that writes a number. It reads back as the number, and it lies between the same powers
of ten, up to the ends. So it is below a power of ten exactly when the number is, as long as this
power does not read as a number that is below it.
-/

namespace QueryOptions.Decimal

open Binary64 (IsCanonical ofDecimal)

def value (decimal : Decimal) : ℚ := decimal.digits * 10 ^ decimal.exponent

theorem drop_zeros_value (fuel : Nat) (decimal : Decimal) :
    (dropZeros fuel decimal).value = decimal.value := by
  induction fuel generalizing decimal with
  | zero => rfl
  | succ fuel induction =>
      rw [dropZeros]
      split
      · rename_i zero
        have whole : decimal.digits / 10 * 10 = decimal.digits :=
          Nat.div_mul_cancel (Nat.dvd_of_mod_eq_zero zero.2)
        have digits : (decimal.digits : ℚ) = (decimal.digits / 10 : Nat) * 10 := by
          exact_mod_cast whole.symm
        rw [induction, value, value, digits, zpow_add₀ (by norm_num : (10 : ℚ) ≠ 0)]
        ring
      · rfl

section Grids

variable {numerator denominator : Nat} (positive : 0 < denominator)

include positive

theorem leading_exponent_spec (given : 0 < numerator) :
    (10 : ℚ) ^ leadingExponent numerator denominator ≤ numerator / denominator ∧
      (numerator : ℚ) / denominator < 10 ^ (leadingExponent numerator denominator + 1) := by
  have bounds {n : Nat} (given : 0 < n) : (10 : ℚ) ^ ((Binary64.decimalLength n : Int) - 1) ≤ n ∧
      (n : ℚ) < 10 ^ ((Binary64.decimalLength n : Int) - 1 + 1) := by
    rw [Int.sub_add_cancel]
    exact Binary64.decimal_length_bounds given.ne'
  have growing : (1 : ℚ) < 10 := by norm_num
  obtain ⟨least, most⟩ := quotient_between growing (bounds given) (bounds positive)
  unfold leadingExponent
  generalize guessed : (Binary64.decimalLength numerator : Int) -
    Binary64.decimalLength denominator = guess
  have bottom : (0 : ℚ) < denominator := by exact_mod_cast positive
  have reached : (if 0 ≤ guess then denominator * Nat.pow 10 guess.toNat ≤ numerator
      else denominator ≤ numerator * Nat.pow 10 (-guess).toNat) ↔
      (10 : ℚ) ^ guess ≤ numerator / denominator := by
    rw [le_div_iff₀ bottom]
    split
    · rename_i upwards
      rw [← Nat.cast_le (α := ℚ), Nat.cast_mul, power_upwards 10 upwards, mul_comm]
      rfl
    · rename_i downwards
      have power : (0 : ℚ) < 10 ^ guess := by positivity
      rw [← Nat.cast_le (α := ℚ), Nat.cast_mul, power_downwards 10 downwards, Nat.cast_ofNat,
        ← div_eq_mul_inv, le_div_iff₀ power, mul_comm]
  have lower : (Binary64.decimalLength numerator : Int) - 1 -
      (Binary64.decimalLength denominator - 1) - 1 = guess - 1 := by omega
  have upper : (Binary64.decimalLength numerator : Int) - 1 -
      (Binary64.decimalLength denominator - 1) + 1 = guess + 1 := by omega
  rw [lower] at least
  rw [upper] at most
  dsimp only
  by_cases atLeast : (10 : ℚ) ^ guess ≤ numerator / denominator
  · rw [if_pos (reached.mpr atLeast)]
    exact ⟨atLeast, most⟩
  · rw [if_neg (mt reached.mp atLeast), Int.sub_add_cancel]
    exact ⟨least, not_le.mp atLeast⟩

theorem on_grid_spec (exponent : Int) :
    ((onGrid numerator denominator exponent).1 : ℚ) * 10 ^ exponent ≤ numerator / denominator ∧
      (numerator : ℚ) / denominator <
        ((onGrid numerator denominator exponent).1 + 1 : Nat) * 10 ^ exponent := by
  obtain ⟨scaledPositive, exactly⟩ :=
    scaled_ratio (by decide : 0 < 10) numerator positive exponent
  unfold onGrid
  generalize (if 0 ≤ exponent then _ else _) = scaled at scaledPositive exactly
  have power : (0 : ℚ) < 10 ^ exponent := by positivity
  have divisor : (0 : ℚ) < scaled.2 := by exact_mod_cast scaledPositive
  have whole : (numerator : ℚ) / denominator = scaled.1 / scaled.2 * 10 ^ exponent := by
    rw [exactly, Nat.cast_ofNat, div_mul_cancel₀ _ power.ne']
  dsimp only
  rw [whole]
  constructor
  · gcongr
    rw [le_div_iff₀ divisor]
    exact_mod_cast Nat.div_mul_le_self scaled.1 scaled.2
  · gcongr
    rw [div_lt_iff₀ divisor]
    exact_mod_cast Nat.lt_mul_of_div_lt (Nat.lt_succ_self _) scaledPositive

omit positive in
theorem mem_neighbours {count : Nat} {candidate : Decimal}
    (member : candidate ∈ neighbours count numerator denominator) :
    candidate.exponent = leadingExponent numerator denominator - count + 1 ∧
      (candidate.digits = (onGrid numerator denominator candidate.exponent).1 ∨
        candidate.digits = (onGrid numerator denominator candidate.exponent).1 + 1) := by
  unfold neighbours at member
  dsimp only at member
  split_ifs at member
  · rw [List.mem_singleton] at member
    rw [member]
    exact ⟨rfl, .inl rfl⟩
  · rw [List.mem_pair] at member
    rcases member with rfl | rfl
    · exact ⟨rfl, .inr rfl⟩
    · exact ⟨rfl, .inl rfl⟩
  · rw [List.mem_pair] at member
    rcases member with rfl | rfl
    · exact ⟨rfl, .inl rfl⟩
    · exact ⟨rfl, .inr rfl⟩

theorem neighbours_between (given : 0 < numerator) {count : Nat} (counted : 0 < count)
    {candidate : Decimal} (member : candidate ∈ neighbours count numerator denominator) :
    (10 : ℚ) ^ leadingExponent numerator denominator ≤ candidate.value ∧
      candidate.value ≤ 10 ^ (leadingExponent numerator denominator + 1) := by
  obtain ⟨least, most⟩ := leading_exponent_spec positive given
  obtain ⟨exponent, digits⟩ := mem_neighbours member
  obtain ⟨below, above⟩ := @on_grid_spec numerator denominator positive candidate.exponent
  generalize (onGrid numerator denominator candidate.exponent).1 = quotient at *
  have power : (0 : ℚ) < 10 ^ candidate.exponent := by positivity
  have ten : (10 : ℚ) ≠ 0 := by norm_num
  have first : (10 : ℚ) ^ leadingExponent numerator denominator =
      (10 ^ (count - 1) : Nat) * 10 ^ candidate.exponent := by
    rw [exponent, Nat.cast_pow, Nat.cast_ofNat, ← zpow_natCast, ← zpow_add₀ ten]
    congr 1
    omega
  have next : (10 : ℚ) ^ (leadingExponent numerator denominator + 1) =
      (10 ^ count : Nat) * 10 ^ candidate.exponent := by
    rw [exponent, Nat.cast_pow, Nat.cast_ofNat, ← zpow_natCast, ← zpow_add₀ ten]
    congr 1
    omega
  have enough : 10 ^ (count - 1) ≤ quotient := by
    have reached := least.trans_lt above
    rw [first, mul_lt_mul_iff_left₀ power, Nat.cast_lt] at reached
    omega
  have short : quotient + 1 ≤ 10 ^ count := by
    have reached := below.trans_lt most
    rw [next, mul_lt_mul_iff_left₀ power, Nat.cast_lt] at reached
    omega
  rw [first, next, value, mul_le_mul_iff_left₀ power, mul_le_mul_iff_left₀ power, Nat.cast_le,
    Nat.cast_le]
  omega

end Grids

theorem exact_value (significand : Nat) (exponent : Int) :
    (exact significand exponent).value = significand * 2 ^ exponent := by
  unfold exact value
  split
  · rename_i upwards
    rw [Nat.cast_mul, power_upwards 2 upwards]
    simp
  · rename_i downwards
    rw [Nat.cast_mul, power_downwards 5 downwards, mul_assoc, ← inv_zpow, ← mul_zpow]
    norm_num

theorem fraction_value (significand : Nat) (exponent : Int) :
    (((Binary64.fraction false significand exponent).1.toNat : Nat) : ℚ) /
        (Binary64.fraction false significand exponent).2 = significand * 2 ^ exponent := by
  unfold Binary64.fraction
  dsimp only
  split
  · rename_i upwards
    have whole : ((significand : Int) * Nat.pow 2 exponent.toNat).toNat =
        significand * Nat.pow 2 exponent.toNat := by
      exact_mod_cast Int.toNat_natCast (significand * Nat.pow 2 exponent.toNat)
    rw [if_neg Bool.false_ne_true, whole, Nat.cast_mul, power_upwards 2 upwards]
    norm_num
  · rename_i downwards
    rw [if_neg Bool.false_ne_true, Int.toNat_natCast, power_downwards 2 downwards]
    norm_num

/-- What it takes for a decimal to write a number: it reads back as the number, and it is between
the powers of ten on both sides of it. -/
structure Writes (significand : Nat) (exponent : Int) (decimal : Decimal) : Prop where
  reads : ofDecimal false decimal.digits decimal.exponent = .finite false significand exponent
  between : ∃ leading : Int, ((10 : ℚ) ^ leading ≤ significand * 2 ^ exponent ∧
      (significand : ℚ) * 2 ^ exponent < 10 ^ (leading + 1)) ∧
    10 ^ leading ≤ decimal.value ∧ decimal.value ≤ 10 ^ (leading + 1)

section Numbers

variable {significand : Nat} {exponent : Int} (canonical : IsCanonical significand exponent)
  (given : significand ≠ 0)

include canonical given

/-- The digits that are found write the number, by their own test or because they are all digits. -/
theorem first_reading_back_writes {counts : List Nat} (counted : ∀ count ∈ counts, 0 < count) :
    Writes significand exponent (firstReadingBack significand exponent counts) := by
  have power : (0 : ℚ) < 2 ^ exponent := by positivity
  have valuePositive : (0 : ℚ) < significand * 2 ^ exponent :=
    mul_pos (by exact_mod_cast Nat.pos_of_ne_zero given) power
  have exactly := fraction_value significand exponent
  have positive := Binary64.fraction_denominator_positive false significand exponent
  have numeratorGiven : 0 < (Binary64.fraction false significand exponent).1.toNat := by
    refine Nat.pos_of_ne_zero fun nothing => ?_
    rw [nothing, Nat.cast_zero, zero_div] at exactly
    exact valuePositive.ne exactly
  have leading := leading_exponent_spec positive numeratorGiven
  induction counts with
  | nil =>
      change Writes significand exponent (exact significand exponent)
      refine ⟨Binary64.of_decimal_exact false canonical given (exact_value significand exponent),
        _, exactly ▸ leading, ?_⟩
      rw [exact_value, ← exactly]
      exact ⟨leading.1, leading.2.le⟩
  | cons count counts induction =>
      rw [firstReadingBack]
      split
      · rename_i candidate found
        refine ⟨by simpa using List.find?_some found, _, exactly ▸ leading, ?_⟩
        exact neighbours_between positive numeratorGiven (counted count List.mem_cons_self)
          (List.mem_of_find?_eq_some found)
      · exact induction fun other member => counted other (List.mem_cons_of_mem count member)

theorem shortest_writes : Writes significand exponent (shortest significand exponent) := by
  have found : Writes significand exponent
      (firstReadingBack significand exponent ((List.range 17).map (· + 1))) :=
    first_reading_back_writes canonical given (by simp)
  have same := drop_zeros_value 400
    (firstReadingBack significand exponent ((List.range 17).map (· + 1)))
  unfold shortest
  refine ⟨(Binary64.of_decimal_congr false same).trans found.reads, ?_⟩
  rw [same]
  exact found.between

end Numbers

namespace Writes

variable {significand : Nat} {exponent : Int} {decimal : Decimal}
  (writes : Writes significand exponent decimal)

include writes

theorem digits_given : decimal.digits ≠ 0 := by
  obtain ⟨leading, _, least, _⟩ := writes.between
  intro nothing
  have power : (0 : ℚ) < 10 ^ leading := by positivity
  rw [value, nothing, Nat.cast_zero, zero_mul] at least
  exact absurd power (not_lt.mpr least)

/-- A decimal is below a power of ten when its number is, unless the power itself would be read as
this number. -/
theorem below_iff {bound : Int}
    (covered : ∀ other power, ofDecimal false 1 bound = .finite false other power →
      (10 : ℚ) ^ bound ≤ other * 2 ^ power) :
    decimal.value < 10 ^ bound ↔ (significand : ℚ) * 2 ^ exponent < 10 ^ bound := by
  obtain ⟨leading, ⟨least, most⟩, atLeast, atMost⟩ := writes.between
  have growing : (1 : ℚ) < 10 := by norm_num
  constructor
  · intro below
    have apart := (zpow_lt_zpow_iff_right₀ growing).mp (atLeast.trans_lt below)
    exact most.trans_le ((zpow_le_zpow_iff_right₀ growing).mpr (by omega))
  · intro below
    have apart := (zpow_lt_zpow_iff_right₀ growing).mp (least.trans_lt below)
    have within := atMost.trans ((zpow_le_zpow_iff_right₀ growing).mpr apart)
    refine lt_of_le_of_ne within fun same => ?_
    have power : (decimal.digits : ℚ) * 10 ^ decimal.exponent = (1 : Nat) * 10 ^ bound := by
      rw [Nat.cast_one, one_mul]
      exact same
    have read := (Binary64.of_decimal_congr false power).symm.trans writes.reads
    exact absurd below (not_lt.mpr (covered _ _ read))

theorem below_sixteen :
    decimal.value < 10 ^ (16 : Int) ↔ (significand : ℚ) * 2 ^ exponent < 10 ^ (16 : Int) := by
  refine writes.below_iff fun other power read => ?_
  have known : ofDecimal false 1 16 = .finite false 5000000000000000 1 := by decide +kernel
  rw [known] at read
  cases read
  norm_num

theorem below_minus_four :
    decimal.value < 10 ^ (-4 : Int) ↔ (significand : ℚ) * 2 ^ exponent < 10 ^ (-4 : Int) := by
  refine writes.below_iff fun other power read => ?_
  have known : ofDecimal false 1 (-4) = .finite false 7378697629483821 (-66) := by decide +kernel
  rw [known] at read
  cases read
  norm_num

end Writes

end QueryOptions.Decimal
