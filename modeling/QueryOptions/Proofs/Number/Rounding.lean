import Mathlib.Algebra.Order.Field.Power
import Mathlib.Data.Rat.Cast.Order
import Mathlib.Tactic.NormNum
import Mathlib.Tactic.Positivity
import Mathlib.Tactic.Ring
import QueryOptions.Number.Binary64

/-!
Rounding of ratios to floating-point numbers. A number is read off a ratio by its value alone,
whatever quotient it is written as. What is read is in one form only, and a value that is in this
form already is read as it is.
-/

namespace QueryOptions

theorem power_upwards (base : Nat) {exponent : Int} (upwards : 0 ≤ exponent) :
    ((Nat.pow base exponent.toNat : Nat) : ℚ) = (base : ℚ) ^ exponent := by
  obtain ⟨magnitude, rfl⟩ := Int.eq_ofNat_of_zero_le upwards
  simp [Nat.pow_eq]

theorem power_downwards (base : Nat) {exponent : Int} (downwards : ¬0 ≤ exponent) :
    ((Nat.pow base (-exponent).toNat : Nat) : ℚ) = ((base : ℚ) ^ exponent)⁻¹ := by
  rw [power_upwards base (by omega), zpow_neg]

theorem scaled_ratio {base : Nat} (baseGiven : 0 < base) (numerator : Nat) {denominator : Nat}
    (positive : 0 < denominator) (shift : Int) :
    let scaled :=
      if 0 ≤ shift then (numerator, denominator * Nat.pow base shift.toNat)
      else (numerator * Nat.pow base (-shift).toNat, denominator)
    0 < scaled.2 ∧ (scaled.1 : ℚ) / scaled.2 = numerator / denominator / base ^ shift := by
  by_cases upwards : 0 ≤ shift
  · simp only [if_pos upwards]
    refine ⟨Nat.mul_pos positive (Nat.pow_pos baseGiven), ?_⟩
    rw [Nat.cast_mul, power_upwards base upwards, div_div]
  · simp only [if_neg upwards]
    refine ⟨positive, ?_⟩
    rw [Nat.cast_mul, power_downwards base upwards]
    ring

/-- A decimal digit holds three bits. -/
theorem two_power_le_ten_power (bits digits : Nat) (fits : bits ≤ 3 * digits) :
    (2 : ℚ) ^ bits ≤ 10 ^ digits := by
  calc
    (2 : ℚ) ^ bits ≤ 2 ^ (3 * digits) := pow_le_pow_right₀ one_le_two fits
    _ = 8 ^ digits := by
      rw [pow_mul]
      norm_num
    _ ≤ 10 ^ digits := by
      gcongr
      norm_num

theorem quotient_between {base top bottom : ℚ} (growing : 1 < base) {above below : Int}
    (topBounds : base ^ above ≤ top ∧ top < base ^ (above + 1))
    (bottomBounds : base ^ below ≤ bottom ∧ bottom < base ^ (below + 1)) :
    base ^ (above - below - 1) ≤ top / bottom ∧ top / bottom < base ^ (above - below + 1) := by
  have basePositive : 0 < base := zero_lt_one.trans growing
  have bottomPositive : 0 < bottom := (zpow_pos basePositive below).trans_le bottomBounds.1
  constructor
  · rw [le_div_iff₀ bottomPositive]
    calc
      _ ≤ base ^ (above - below - 1) * base ^ (below + 1) := by
        gcongr
        exact bottomBounds.2.le
      _ = base ^ above := by
        rw [← zpow_add₀ basePositive.ne']
        congr 1
        ring
      _ ≤ top := topBounds.1
  · rw [div_lt_iff₀ bottomPositive]
    calc
      top < base ^ (above + 1) := topBounds.2
      _ = base ^ (above - below + 1) * base ^ below := by
        rw [← zpow_add₀ basePositive.ne']
        congr 1
        ring
      _ ≤ _ := by
        gcongr
        exact bottomBounds.1

namespace Binary64

theorem fraction_denominator_positive (negative : Bool) (significand : Nat) (exponent : Int) :
    0 < (fraction negative significand exponent).2 := by
  unfold fraction
  by_cases whole : 0 ≤ exponent
  · simp only [if_pos whole, Nat.one_pos]
  · simp only [if_neg whole]
    exact Nat.pow_pos Nat.two_pos

section Exponents

/-- The exponent at which a positive value is rounded: the least one where its significand has no
more bits than there are. -/
structure IsExponent (value : ℚ) (exponent : Int) : Prop where
  least : leastExponent ≤ exponent
  above : value < 2 ^ (exponent + 53)
  tight : exponent = leastExponent ∨ 2 ^ (exponent + 52) ≤ value

theorem IsExponent.unique {value : ℚ} {exponent other : Int}
    (isExponent : IsExponent value exponent) (isOther : IsExponent value other) :
    exponent = other := by
  have atMost {first second : Int} (isFirst : IsExponent value first)
      (isSecond : IsExponent value second) : first ≤ second := by
    rcases isFirst.tight with least | below
    · exact least ▸ isSecond.least
    · have powers := (zpow_lt_zpow_iff_right₀ (one_lt_two (α := ℚ))).mp
        (below.trans_lt isSecond.above)
      omega
  exact Int.le_antisymm (atMost isExponent isOther) (atMost isOther isExponent)

variable (numerator : Nat) {denominator : Nat} (positive : 0 < denominator)

include positive

theorem scale_down_spec (shift : Int) :
    0 < (scaleDown numerator denominator shift).2 ∧
      ((scaleDown numerator denominator shift).1 : ℚ) / (scaleDown numerator denominator shift).2 =
        numerator / denominator / 2 ^ shift := by
  have scaled := scaled_ratio Nat.two_pos numerator positive shift
  rwa [Nat.cast_two] at scaled

theorem scaled_below_iff (shift : Int) (bits : Nat) :
    (scaleDown numerator denominator shift).1 <
        (scaleDown numerator denominator shift).2 * Nat.pow 2 bits ↔
      (numerator : ℚ) / denominator < 2 ^ (shift + bits) := by
  obtain ⟨scaledPositive, scaled⟩ := scale_down_spec numerator positive shift
  have power : (0 : ℚ) < 2 ^ shift := by positivity
  have whole : ((Nat.pow 2 bits : Nat) : ℚ) = 2 ^ (bits : Int) := by
    rw [Nat.pow_eq, Nat.cast_pow, Nat.cast_two, zpow_natCast]
  calc
    _ ↔ ((scaleDown numerator denominator shift).1 : ℚ) <
        (scaleDown numerator denominator shift).2 * 2 ^ (bits : Int) := by
      rw [← whole]
      exact_mod_cast Iff.rfl
    _ ↔ ((scaleDown numerator denominator shift).1 : ℚ) /
        (scaleDown numerator denominator shift).2 < 2 ^ (bits : Int) := by
      rw [div_lt_iff₀ (by exact_mod_cast scaledPositive), mul_comm]
    _ ↔ _ := by
      rw [scaled, div_lt_iff₀ power, zpow_add₀ two_ne_zero, mul_comm]

variable {numerator}

theorem ratio_bits (given : 0 < numerator) :
    (2 : ℚ) ^ ((numerator.log2 : Int) - denominator.log2 - 1) ≤ numerator / denominator ∧
      (numerator : ℚ) / denominator < 2 ^ ((numerator.log2 : Int) - denominator.log2 + 1) := by
  have bounds {n : Nat} (given : 0 < n) :
      (2 : ℚ) ^ (n.log2 : Int) ≤ n ∧ (n : ℚ) < 2 ^ ((n.log2 : Int) + 1) := by
    constructor
    · rw [zpow_natCast]
      exact_mod_cast Nat.log2_self_le given.ne'
    · exact_mod_cast Nat.lt_log2_self (n := n)
  exact quotient_between one_lt_two (bounds given) (bounds positive)

theorem exponent_for_is (given : 0 < numerator) :
    IsExponent ((numerator : ℚ) / denominator) (exponentFor numerator denominator) := by
  obtain ⟨atLeast, atMost⟩ := ratio_bits positive given
  have bits : (precision : Int) = 53 := rfl
  unfold exponentFor
  rw [bits]
  generalize guessed : max ((numerator.log2 : Int) - denominator.log2 - 53) leastExponent = guess
  dsimp only
  split
  · rename_i fits
    refine ⟨by omega, (scaled_below_iff numerator positive guess precision).mp fits, ?_⟩
    by_cases least : guess = leastExponent
    · exact .inl least
    · refine .inr (le_trans ?_ atLeast)
      rw [zpow_le_zpow_iff_right₀ one_lt_two]
      omega
  · rename_i tooLong
    have below := not_lt.mp (mt (scaled_below_iff numerator positive guess precision).mpr tooLong)
    have carried : guess + 1 + 52 = guess + 53 := by omega
    refine ⟨by omega, atMost.trans_le ?_, .inr (carried ▸ below)⟩
    rw [zpow_le_zpow_iff_right₀ one_lt_two]
    omega

end Exponents

section Ratios

theorem rounded_quotient_scaled (numerator denominator : Nat) {factor : Nat} (given : 0 < factor) :
    roundedQuotient (numerator * factor) (denominator * factor) =
      roundedQuotient numerator denominator := by
  have doubled : 2 * (numerator % denominator * factor) =
      2 * (numerator % denominator) * factor := by ring
  unfold roundedQuotient
  simp only [Nat.mul_div_mul_right _ _ given, Nat.mul_mod_mul_right, doubled,
    Nat.mul_lt_mul_right given]

variable {numerator denominator otherNumerator otherDenominator : Nat}
  (positive : 0 < denominator) (otherPositive : 0 < otherDenominator)
  (same : (numerator : ℚ) / denominator = otherNumerator / otherDenominator)

include positive otherPositive same

theorem ratios_crossed : numerator * otherDenominator = otherNumerator * denominator := by
  rw [div_eq_div_iff (by positivity) (by positivity)] at same
  exact_mod_cast same

theorem rounded_quotient_congr :
    roundedQuotient numerator denominator = roundedQuotient otherNumerator otherDenominator := by
  rw [← rounded_quotient_scaled numerator denominator otherPositive,
    ratios_crossed positive otherPositive same, Nat.mul_comm denominator,
    rounded_quotient_scaled _ _ positive]

theorem of_ratio_congr (negative : Bool) :
    ofRatio negative numerator denominator =
      ofRatio negative otherNumerator otherDenominator := by
  have crossed := ratios_crossed positive otherPositive same
  unfold ofRatio
  by_cases nothing : numerator = 0
  · have otherNothing : otherNumerator = 0 := by
      rw [nothing, Nat.zero_mul] at crossed
      exact (Nat.mul_eq_zero.mp crossed.symm).resolve_right positive.ne'
    rw [if_pos nothing, if_pos otherNothing]
  · have otherGiven : otherNumerator ≠ 0 := by
      rintro rfl
      rw [Nat.zero_mul] at crossed
      exact nothing ((Nat.mul_eq_zero.mp crossed).resolve_right otherPositive.ne')
    have exponents : exponentFor numerator denominator =
        exponentFor otherNumerator otherDenominator :=
      (exponent_for_is positive (Nat.pos_of_ne_zero nothing)).unique
        (same ▸ exponent_for_is otherPositive (Nat.pos_of_ne_zero otherGiven))
    rw [if_neg nothing, if_neg otherGiven, exponents]
    dsimp only
    obtain ⟨scaledPositive, scaled⟩ := scale_down_spec numerator positive
      (exponentFor otherNumerator otherDenominator)
    obtain ⟨otherScaledPositive, otherScaled⟩ := scale_down_spec otherNumerator
      otherPositive (exponentFor otherNumerator otherDenominator)
    rw [← same, ← scaled] at otherScaled
    rw [rounded_quotient_congr scaledPositive otherScaledPositive otherScaled.symm]

end Ratios

theorem rounded_quotient_bounds (numerator denominator : Nat) :
    numerator / denominator ≤ roundedQuotient numerator denominator ∧
      roundedQuotient numerator denominator ≤ numerator / denominator + 1 := by
  unfold roundedQuotient
  dsimp only
  split_ifs <;> omega

/-- The one form in which a finite number is read. -/
structure IsCanonical (significand : Nat) (exponent : Int) : Prop where
  least : leastExponent ≤ exponent
  greatest : exponent ≤ greatestExponent
  short : significand < 2 ^ 53
  full : exponent = leastExponent ∨ 2 ^ 52 ≤ significand

section Canonical

variable {significand : Nat} {exponent : Int} (canonical : IsCanonical significand exponent)

include canonical

theorem IsCanonical.of_zero (nothing : significand = 0) : exponent = leastExponent := by
  rcases canonical.full with least | full
  · exact least
  · rw [nothing] at full
    exact absurd full (by decide)

theorem IsCanonical.is_exponent :
    IsExponent ((significand : ℚ) * 2 ^ exponent) exponent := by
  have power : (0 : ℚ) < 2 ^ exponent := by positivity
  have short : (significand : ℚ) < 2 ^ 53 := by exact_mod_cast canonical.short
  refine ⟨canonical.least, ?_, canonical.full.imp_right fun full => ?_⟩
  · rw [zpow_add₀ two_ne_zero, mul_comm]
    gcongr
    exact short
  · have enough : (2 : ℚ) ^ 52 ≤ significand := by exact_mod_cast full
    rw [zpow_add₀ two_ne_zero, mul_comm]
    gcongr
    exact enough

/-- The values of the one form are well between the powers of ten that reading cares for. -/
theorem IsCanonical.between (given : significand ≠ 0) :
    (10 : ℚ) ^ (-401 : Int) ≤ significand * 2 ^ exponent ∧
      (significand : ℚ) * 2 ^ exponent < 10 ^ (400 : Int) := by
  have power : (0 : ℚ) < 2 ^ exponent := by positivity
  have one : (1 : ℚ) ≤ significand := by exact_mod_cast Nat.pos_of_ne_zero given
  have short : (significand : ℚ) < 2 ^ (53 : Int) := by exact_mod_cast canonical.short
  constructor
  · calc
      (10 : ℚ) ^ (-401 : Int) ≤ 2 ^ (-1074 : Int) := by
        rw [zpow_neg, zpow_neg]
        refine inv_anti₀ (by positivity) ?_
        exact_mod_cast two_power_le_ten_power 1074 401 (by decide)
      _ ≤ 2 ^ exponent := (zpow_le_zpow_iff_right₀ one_lt_two).mpr canonical.least
      _ ≤ significand * 2 ^ exponent := le_mul_of_one_le_left power.le one
  · calc
      (significand : ℚ) * 2 ^ exponent < 2 ^ (53 : Int) * 2 ^ (971 : Int) :=
        mul_lt_mul short ((zpow_le_zpow_iff_right₀ one_lt_two).mpr canonical.greatest) power
          (by positivity)
      _ = 2 ^ (1024 : Int) := (zpow_add₀ two_ne_zero 53 971).symm
      _ ≤ 10 ^ (400 : Int) := by exact_mod_cast two_power_le_ten_power 1024 400 (by decide)

theorem assemble_canonical (negative : Bool) :
    assemble negative significand exponent = .finite negative significand exponent := by
  have short : significand ≠ Nat.pow 2 precision := canonical.short.ne
  unfold assemble
  rw [if_neg short]
  exact if_neg (Int.not_lt.mpr canonical.greatest)

theorem of_ratio_exact {numerator denominator : Nat} (positive : 0 < denominator)
    (exactly : (numerator : ℚ) / denominator = significand * 2 ^ exponent) (negative : Bool) :
    ofRatio negative numerator denominator = .finite negative significand exponent := by
  have bottom : (denominator : ℚ) ≠ 0 := by positivity
  have power : (0 : ℚ) < 2 ^ exponent := by positivity
  unfold ofRatio
  by_cases nothing : numerator = 0
  · have nothingLeft : significand = 0 := by
      have value : (significand : ℚ) * 2 ^ exponent = 0 := by simpa [nothing] using exactly.symm
      exact_mod_cast (mul_eq_zero.mp value).resolve_right power.ne'
    rw [if_pos nothing, nothingLeft, canonical.of_zero nothingLeft]
  · have isExponent := exponent_for_is positive (Nat.pos_of_ne_zero nothing)
    rw [exactly] at isExponent
    obtain ⟨scaledPositive, scaled⟩ := scale_down_spec numerator positive exponent
    rw [exactly, mul_div_cancel_right₀ _ power.ne', ← div_one (significand : ℚ),
      ← Nat.cast_one] at scaled
    rw [if_neg nothing, isExponent.unique canonical.is_exponent]
    dsimp only
    rw [rounded_quotient_congr scaledPositive Nat.one_pos scaled]
    have whole : roundedQuotient significand 1 = significand := by
      simp [roundedQuotient, Nat.mod_one]
    rw [whole, assemble_canonical canonical]

end Canonical

inductive IsRead (negative : Bool) : Binary64 → Prop where
  | infinite : IsRead negative (.infinite negative)
  | finite {significand : Nat} {exponent : Int} (canonical : IsCanonical significand exponent) :
      IsRead negative (.finite negative significand exponent)

theorem IsRead.number {negative : Bool} {value : Binary64} (read : IsRead negative value) :
    value ≠ .nan := by
  cases read <;> exact nofun

theorem zero_is_read (negative : Bool) : IsRead negative (.finite negative 0 leastExponent) :=
  .finite ⟨by decide, by decide, by decide, .inl rfl⟩

theorem assemble_is_read (negative : Bool) {significand : Nat} {exponent : Int}
    (least : leastExponent ≤ exponent) (short : significand ≤ 2 ^ 53)
    (full : exponent = leastExponent ∨ 2 ^ 52 ≤ significand) :
    IsRead negative (assemble negative significand exponent) := by
  have bits : Nat.pow 2 precision = 2 ^ 53 := rfl
  have carried : Nat.pow 2 (precision - 1) = 2 ^ 52 := rfl
  unfold assemble
  rw [bits, carried]
  by_cases overflow : significand = 2 ^ 53
  · rw [if_pos overflow]
    dsimp only
    split
    · exact .infinite
    · exact .finite ⟨by omega, by omega, by norm_num, .inr le_rfl⟩
  · rw [if_neg overflow]
    dsimp only
    split
    · exact .infinite
    · exact .finite ⟨least, by omega, by omega, full⟩

theorem of_ratio_is_read (negative : Bool) {numerator denominator : Nat}
    (positive : 0 < denominator) : IsRead negative (ofRatio negative numerator denominator) := by
  unfold ofRatio
  split
  · exact zero_is_read negative
  rename_i given
  have isExponent := exponent_for_is positive (Nat.pos_of_ne_zero given)
  dsimp only
  generalize exponentFor numerator denominator = exponent at isExponent
  obtain ⟨scaledPositive, _⟩ := scale_down_spec numerator positive exponent
  have fits := scaled_below_iff numerator positive exponent
  generalize scaleDown numerator denominator exponent = scaled at scaledPositive fits
  obtain ⟨least, most⟩ := rounded_quotient_bounds scaled.1 scaled.2
  refine assemble_is_read negative isExponent.least ?_ (isExponent.tight.imp_right fun tight => ?_)
  · have below := (fits 53).mpr isExponent.above
    have quotient : scaled.1 / scaled.2 < 2 ^ 53 := Nat.div_lt_of_lt_mul below
    omega
  · have above := Nat.le_of_not_lt (mt (fits 52).mp tight.not_gt)
    have quotient : 2 ^ 52 ≤ scaled.1 / scaled.2 :=
      (Nat.le_div_iff_mul_le scaledPositive).mpr (Nat.mul_comm _ _ ▸ above)
    exact quotient.trans least

def withSign (negative : Bool) : Binary64 → Binary64
  | .nan => .nan
  | .infinite _ => .infinite negative
  | .finite _ significand exponent => .finite negative significand exponent

theorem assemble_with_sign (negative : Bool) (significand : Nat) (exponent : Int) :
    assemble negative significand exponent =
      (assemble false significand exponent).withSign negative := by
  unfold assemble
  dsimp only
  split <;> split <;> rfl

theorem of_ratio_with_sign (negative : Bool) (numerator denominator : Nat) :
    ofRatio negative numerator denominator =
      (ofRatio false numerator denominator).withSign negative := by
  unfold ofRatio
  split
  · rfl
  · exact assemble_with_sign negative _ _

end Binary64

end QueryOptions
