import QueryOptions.Proofs.Number.Rounding
import QueryOptions.Proofs.Order.StableSort
import QueryOptions.Sql.Cell

/-!
Cells that are not a number that is no number are totally ordered. A cell has a place made of a
stratum, a magnitude and a spelling, and comparing cells is comparing their places one part after
the other. Items that have cells under keys are ordered by one key after the other.
-/

namespace QueryOptions

namespace Number.Point

def stratum : Point → Nat
  | .below => 1
  | .fraction _ _ => 2
  | .above => 3

def magnitude : Point → ℚ
  | .fraction numerator denominator => numerator / denominator
  | _ => 0

def IsProper : Point → Prop
  | .fraction _ denominator => 0 < denominator
  | _ => True

theorem cross_multiplied {leftDenominator rightDenominator : Nat} (left right : Int)
    (leftPositive : 0 < leftDenominator) (rightPositive : 0 < rightDenominator) :
    Ord.compare (left * rightDenominator) (right * leftDenominator) =
      Ord.compare ((left : ℚ) / leftDenominator) ((right : ℚ) / rightDenominator) := by
  have leftPos : (0 : ℚ) < leftDenominator := by exact_mod_cast leftPositive
  have rightPos : (0 : ℚ) < rightDenominator := by exact_mod_cast rightPositive
  rcases lt_trichotomy (left * rightDenominator) (right * leftDenominator) with
    less | same | greater
  · rw [compare_lt_iff_lt.mpr less, eq_comm, compare_lt_iff_lt, div_lt_div_iff₀ leftPos rightPos]
    exact_mod_cast less
  · rw [compare_eq_iff_eq.mpr same, eq_comm, compare_eq_iff_eq, div_eq_div_iff leftPos.ne'
      rightPos.ne']
    exact_mod_cast same
  · rw [compare_gt_iff_gt.mpr greater, eq_comm, compare_gt_iff_gt,
      div_lt_div_iff₀ rightPos leftPos]
    exact_mod_cast greater

theorem compare_eq_places {left right : Point} (leftProper : left.IsProper)
    (rightProper : right.IsProper) :
    left.compare right =
      (Ord.compare left.stratum right.stratum).then
        (Ord.compare left.magnitude right.magnitude) := by
  cases left with
  | below => cases right <;> simp [compare, stratum, magnitude] <;> rfl
  | above => cases right <;> simp [compare, stratum, magnitude] <;> rfl
  | fraction numerator denominator =>
      cases right with
      | below => rfl
      | above => rfl
      | fraction other otherDenominator =>
          exact cross_multiplied numerator other leftProper rightProper

end Number.Point

namespace Number

theorem point_proper {number : Number} {point : Point} (found : number.point? = some point) :
    point.IsProper := by
  cases number with
  | integer value =>
      cases found
      exact Nat.one_pos
  | real value =>
      cases value with
      | nan => cases found
      | infinite negative => cases negative <;> cases found <;> trivial
      | finite negative significand exponent =>
          cases found
          exact Binary64.fraction_denominator_positive negative significand exponent

end Number

namespace Sql.Cell

def point? (cell : Cell) : Option Number.Point := cell.number?.bind Number.point?

def stratum (cell : Cell) : Nat :=
  match cell with
  | .text _ => 4
  | _ => (cell.point?.map Number.Point.stratum).getD 0

def magnitude (cell : Cell) : ℚ := (cell.point?.map Number.Point.magnitude).getD 0

def spelling : Cell → String
  | .text value => value
  | _ => ""

def placeOrder : Cell → Cell → Ordering :=
  compareLex (compareOn stratum) (compareLex (compareOn magnitude) (compareOn spelling))

instance : Std.TransCmp placeOrder := by
  unfold placeOrder
  infer_instance

theorem compare_text_eq (left right : String) :
    Value.compareText left right = Ord.compare left right := by
  change _ = compareOfLessAndEq left right
  unfold Value.compareText compareOfLessAndEq
  by_cases less : left < right
  · rw [if_pos less, if_pos less, if_neg (by rintro rfl; exact String.lt_irrefl left less)]
  · rw [if_neg less, if_neg less]

theorem compare_numbers {left right : Cell} {leftPoint rightPoint : Number.Point}
    (leftAt : left.point? = some leftPoint) (rightAt : right.point? = some rightPoint) :
    left.compare right = leftPoint.compare rightPoint := by
  obtain ⟨leftNumber, leftFound, leftPlaced⟩ := Option.bind_eq_some_iff.mp leftAt
  obtain ⟨rightNumber, rightFound, rightPlaced⟩ := Option.bind_eq_some_iff.mp rightAt
  have compared : leftNumber.compare? rightNumber = some (leftPoint.compare rightPoint) := by
    simp [Number.compare?, leftPlaced, rightPlaced]
  cases left with
  | null => cases leftFound
  | text value => cases leftFound
  | integer value => simp [compare, leftFound, rightFound, compared]
  | real value => simp [compare, leftFound, rightFound, compared]

theorem cases_of_number {cell : Cell} (number : cell ≠ .real .nan) :
    cell = .null ∨ (∃ point, cell.point? = some point) ∨ ∃ value, cell = .text value := by
  cases cell with
  | null => exact .inl rfl
  | text value => exact .inr (.inr ⟨value, rfl⟩)
  | integer value => exact .inr (.inl ⟨_, rfl⟩)
  | real value =>
      cases value with
      | nan => exact absurd rfl number
      | infinite negative => cases negative <;> exact .inr (.inl ⟨_, rfl⟩)
      | finite negative significand exponent => exact .inr (.inl ⟨_, rfl⟩)

theorem place_of_point {cell : Cell} {point : Number.Point} (placed : cell.point? = some point) :
    cell.rank = 1 ∧ cell.stratum = point.stratum ∧ cell.magnitude = point.magnitude ∧
      cell.spelling = "" := by
  cases cell with
  | null => cases placed
  | text value => cases placed
  | integer value =>
      refine ⟨rfl, ?_, ?_, rfl⟩
      · simp [stratum, placed]
      · simp [magnitude, placed]
  | real value =>
      refine ⟨rfl, ?_, ?_, rfl⟩
      · simp [stratum, placed]
      · simp [magnitude, placed]

theorem point_proper {cell : Cell} {point : Number.Point} (placed : cell.point? = some point) :
    point.IsProper := by
  obtain ⟨number, _, found⟩ := Option.bind_eq_some_iff.mp placed
  exact Number.point_proper found

theorem place_order_of_strata {left right : Cell} {order : Ordering}
    (strata : Ord.compare left.stratum right.stratum = order) (apart : order ≠ .eq) :
    placeOrder left right = order := by
  unfold placeOrder
  rw [compareLex, compareOn, strata]
  cases order with
  | eq => exact absurd rfl apart
  | lt => rfl
  | gt => rfl

theorem compare_of_ranks {left right : Cell} (apart : left.rank ≠ right.rank) :
    left.compare right = Ord.compare left.rank right.rank := by
  cases left <;> cases right <;> first | rfl | exact absurd rfl apart

theorem point_between (point : Number.Point) : 0 < point.stratum ∧ point.stratum < 4 := by
  cases point <;> exact ⟨by simp [Number.Point.stratum], by simp [Number.Point.stratum]⟩

theorem compare_eq_place_order {left right : Cell} (leftNumber : left ≠ .real .nan)
    (rightNumber : right ≠ .real .nan) : left.compare right = placeOrder left right := by
  rcases cases_of_number leftNumber with rfl | ⟨leftPoint, leftAt⟩ | ⟨leftText, rfl⟩
  · rcases cases_of_number rightNumber with rfl | ⟨rightPoint, rightAt⟩ | ⟨rightText, rfl⟩
    · rfl
    · obtain ⟨rank, stratum, _⟩ := place_of_point rightAt
      have lower : Ord.compare null.stratum right.stratum = .lt :=
        compare_lt_iff_lt.mpr (by rw [stratum]; exact (point_between rightPoint).1)
      rw [place_order_of_strata lower (by decide), compare_of_ranks (by rw [rank]; decide), rank]
      rfl
    · rfl
  · obtain ⟨rank, stratum, magnitude, spelling⟩ := place_of_point leftAt
    rcases cases_of_number rightNumber with rfl | ⟨rightPoint, rightAt⟩ | ⟨rightText, rfl⟩
    · have upper : Ord.compare left.stratum null.stratum = .gt :=
        compare_gt_iff_gt.mpr (by rw [stratum]; exact (point_between leftPoint).1)
      rw [place_order_of_strata upper (by decide), compare_of_ranks (by rw [rank]; decide), rank]
      rfl
    · obtain ⟨_, otherStratum, otherMagnitude, otherSpelling⟩ := place_of_point rightAt
      rw [compare_numbers leftAt rightAt,
        Number.Point.compare_eq_places (point_proper leftAt) (point_proper rightAt)]
      simp [placeOrder, compareLex, compareOn, stratum, otherStratum, magnitude, otherMagnitude,
        spelling, otherSpelling]
    · have lower : Ord.compare left.stratum (text rightText).stratum = .lt :=
        compare_lt_iff_lt.mpr (by rw [stratum]; exact (point_between leftPoint).2)
      rw [place_order_of_strata lower (by decide),
        compare_of_ranks (by rw [rank]; simp [Cell.rank]), rank]
      rfl
  · rcases cases_of_number rightNumber with rfl | ⟨rightPoint, rightAt⟩ | ⟨rightText, rfl⟩
    · rfl
    · obtain ⟨rank, stratum, _⟩ := place_of_point rightAt
      have upper : Ord.compare (text leftText).stratum right.stratum = .gt :=
        compare_gt_iff_gt.mpr (by rw [stratum]; exact (point_between rightPoint).2)
      rw [place_order_of_strata upper (by decide),
        compare_of_ranks (by rw [rank]; simp [Cell.rank]), rank]
      rfl
    · change Value.compareText leftText rightText = _
      rw [compare_text_eq]
      rfl

end Sql.Cell

namespace Sql

section Keys

variable {α κ : Type} {cell : κ → α → Cell}

def cellOrder (cell : κ → α → Cell) : List (κ × Direction) → α → α → Ordering
  | [] => fun _ _ => .eq
  | (key, direction) :: keys =>
      compareLex (direction.directed (Function.onFun Cell.placeOrder (cell key)))
        (cellOrder cell keys)

theorem cell_order_eq_lex_order (keys : List (κ × Direction)) :
    cellOrder cell keys = lexOrder (fun key => Function.onFun Cell.placeOrder (cell key)) keys := by
  induction keys with
  | nil => rfl
  | cons key keys induction => exact congrArg (compareLex _) induction

instance (keys : List (κ × Direction)) : Std.TransCmp (cellOrder cell keys) := by
  rw [cell_order_eq_lex_order]
  infer_instance

theorem level_under_keys {keys : List (κ × Direction)} {left right : α}
    (same : cellOrder cell keys left right = .eq) :
    ∀ key ∈ keys, Cell.placeOrder (cell key.1 left) (cell key.1 right) = .eq := by
  induction keys with
  | nil => intro key member; cases member
  | cons first keys induction =>
      obtain ⟨here, later⟩ := Ordering.then_eq_eq.mp same
      intro key member
      rcases List.mem_cons.mp member with rfl | other
      · obtain ⟨key, direction⟩ := key
        cases direction with
        | ascending => exact here
        | descending => exact Std.OrientedCmp.eq_symm here
      · exact induction later key other

theorem cell_order_map {β ι : Type} {shownCell : ι → β → Cell} (rename : κ → ι) (shown : α → β)
    (same : ∀ key item, shownCell (rename key) (shown item) = cell key item)
    (keys : List (κ × Direction)) (left right : α) :
    cellOrder shownCell (keys.map fun key => (rename key.1, key.2)) (shown left) (shown right) =
      cellOrder cell keys left right := by
  induction keys with
  | nil => rfl
  | cons first keys induction =>
      obtain ⟨key, direction⟩ := first
      rw [List.map_cons]
      unfold cellOrder
      simp only [compareLex, induction]
      congr 1
      cases direction with
      | ascending => exact congrArg₂ Cell.placeOrder (same key left) (same key right)
      | descending => exact congrArg₂ Cell.placeOrder (same key right) (same key left)

end Keys

end Sql

end QueryOptions
