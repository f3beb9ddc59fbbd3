import QueryOptions.Proofs.Memory.Neighbours
import QueryOptions.Proofs.Sql.CellOrder

/-!
Columns of scalars and their orders. Numbers and texts have a natural order each but none in common,
so a column that has both is mixed, and mixed columns are grouped by the names of the kinds. A sort
by the natural order fails on a column exactly when it is mixed.
-/

namespace QueryOptions.Memory

open QueryOptions.Sql (Cell)

/-- What the natural order of values tells apart. Booleans are numbers. -/
inductive Family where
  | null | number | text | other
  deriving DecidableEq, Repr

def familyOf : Value → Family
  | .null => .null
  | .boolean _ | .integer _ | .real _ => .number
  | .text _ => .text
  | .list _ | .record _ | .object .. => .other

/-- Null, a boolean, a text, or a number that is one. -/
def IsScalar : Value → Prop
  | .null | .boolean _ | .integer _ | .text _ => True
  | .real value => value ≠ .nan
  | .list _ | .record _ | .object .. => False

instance : (value : Value) → Decidable (IsScalar value)
  | .null | .boolean _ | .integer _ | .text _ => inferInstanceAs (Decidable True)
  | .real _ => inferInstanceAs (Decidable (_ ≠ _))
  | .list _ | .record _ | .object .. => inferInstanceAs (Decidable False)

/-- The cell of a scalar; a boolean is the number zero or one. -/
def scalarCell : Value → Cell
  | .boolean value => .integer (if value then 1 else 0)
  | .integer value => .integer value
  | .real value => .real value
  | .text value => .text value
  | _ => .null

theorem scalar_cell_value (cell : Cell) : scalarCell cell.value = cell := by
  cases cell <;> rfl

def naturalOrder : Value → Value → Ordering := Function.onFun Cell.placeOrder scalarCell

def mixedOrder : Value → Value → Ordering :=
  compareLex (compareOn fun value => !value.isNull)
    (compareLex (compareOn Value.kindName) naturalOrder)

instance : Std.TransCmp naturalOrder := by
  unfold naturalOrder
  infer_instance

instance : Std.TransCmp mixedOrder := by
  unfold mixedOrder
  infer_instance

/-- A column with a number or a boolean and also with a text. -/
def IsMixed (column : List Value) : Prop :=
  (∃ value ∈ column, familyOf value = .number) ∧ ∃ value ∈ column, familyOf value = .text

instance (column : List Value) : Decidable (IsMixed column) :=
  inferInstanceAs (Decidable (_ ∧ _))

def columnOrder (column : List Value) : Value → Value → Ordering :=
  if IsMixed column then mixedOrder else naturalOrder

instance (column : List Value) : Std.TransCmp (columnOrder column) := by
  unfold columnOrder
  split <;> infer_instance

section Pairs

variable {left right : Value}

theorem numbers_compare {leftNumber rightNumber : Number} (leftAt : left.number? = some leftNumber)
    (rightAt : right.number? = some rightNumber) :
    left.equal right = decide (leftNumber.compare? rightNumber = some .eq) ∧
      left.order right = .ok (leftNumber.compare? rightNumber) := by
  cases left <;> cases leftAt <;> cases right <;> cases rightAt <;>
    simp [Value.equal, Value.order, Value.number?]

theorem point_of_number {value : Value} (scalar : IsScalar value)
    (number : familyOf value = .number) :
    ∃ numeral point, value.number? = some numeral ∧ numeral.point? = some point ∧
      (scalarCell value).point? = some point := by
  cases value with
  | boolean value => exact ⟨_, _, rfl, rfl, rfl⟩
  | integer value => exact ⟨_, _, rfl, rfl, rfl⟩
  | real value =>
      cases value with
      | nan => exact absurd rfl scalar
      | infinite negative => cases negative <;> exact ⟨_, _, rfl, rfl, rfl⟩
      | finite negative significand exponent => exact ⟨_, _, rfl, rfl, rfl⟩
  | null => cases number
  | text value => cases number
  | list items => cases number
  | record entries => cases number
  | object attributes => cases number

theorem text_of_family {value : Value} (isText : familyOf value = .text) :
    ∃ text, value = .text text := by
  cases value <;> cases isText
  exact ⟨_, rfl⟩

theorem family_of_scalar {value : Value} (scalar : IsScalar value) : familyOf value ≠ .other := by
  cases value with
  | list items => exact scalar.elim
  | record entries => exact scalar.elim
  | object attributes => exact scalar.elim
  | _ => simp [familyOf]

theorem family_of_given {value : Value} (given : value ≠ .null) : familyOf value ≠ .null := by
  cases value <;> simp_all [familyOf]

theorem family_of_kind (leftScalar : IsScalar left) (rightScalar : IsScalar right)
    (kinds : left.kindName = right.kindName) : familyOf left = familyOf right := by
  cases left <;> cases right <;>
    first
    | rfl
    | exact leftScalar.elim
    | exact rightScalar.elim
    | exact absurd kinds (by simp [Value.kindName])

theorem scalar_families {value : Value} (scalar : IsScalar value) :
    value = .null ∨ familyOf value = .number ∨ familyOf value = .text := by
  cases value with
  | null => exact .inl rfl
  | boolean value => exact .inr (.inl rfl)
  | integer value => exact .inr (.inl rfl)
  | real value => exact .inr (.inl rfl)
  | text value => exact .inr (.inr rfl)
  | list items => exact scalar.elim
  | record entries => exact scalar.elim
  | object attributes => exact scalar.elim

theorem scalar_cell_number {value : Value} (scalar : IsScalar value) :
    scalarCell value ≠ .real .nan := by
  cases value with
  | real value =>
      intro same
      cases same
      exact scalar rfl
  | _ => simp [scalarCell]

variable (leftScalar : IsScalar left) (rightScalar : IsScalar right)

include leftScalar rightScalar

theorem natural_order_eq_compare :
    naturalOrder left right = (scalarCell left).compare (scalarCell right) :=
  (Cell.compare_eq_place_order (scalar_cell_number leftScalar)
    (scalar_cell_number rightScalar)).symm

theorem value_less_natural (given : familyOf left ≠ .null)
    (same : familyOf left = familyOf right) :
    valueLess left right = .ok (decide (naturalOrder left right = .lt)) := by
  rw [natural_order_eq_compare leftScalar rightScalar]
  cases family : familyOf left with
  | null => exact absurd family given
  | number =>
      obtain ⟨leftNumber, leftPoint, leftAt, leftPlaced, leftCell⟩ :=
        point_of_number leftScalar family
      obtain ⟨rightNumber, rightPoint, rightAt, rightPlaced, rightCell⟩ :=
        point_of_number rightScalar (same.symm.trans family)
      obtain ⟨equal, order⟩ := numbers_compare leftAt rightAt
      have compared : leftNumber.compare? rightNumber = some (leftPoint.compare rightPoint) := by
        simp [Number.compare?, leftPlaced, rightPlaced]
      rw [Cell.compare_numbers leftCell rightCell, valueLess, equal, order, compared]
      cases leftPoint.compare rightPoint <;> rfl
  | text =>
      obtain ⟨leftText, rfl⟩ := text_of_family family
      obtain ⟨rightText, rfl⟩ := text_of_family (same.symm.trans family)
      change valueLess (.text leftText) (.text rightText) =
        .ok (decide (Value.compareText leftText rightText = .lt))
      by_cases equal : leftText = rightText
      · simp [valueLess, Value.equal, Value.compareText, equal, pure, Except.pure]
      · have order : Value.order (.text leftText) (.text rightText) =
            .ok (some (Value.compareText leftText rightText)) := by
          simp [Value.order]
        rw [valueLess, order]
        simp [Value.equal, equal, bind, Except.bind, pure, Except.pure]
  | other => exact absurd family (family_of_scalar leftScalar)

/-- A comparison and an order that put null first agree if they agree on all that is not null. -/
theorem decides_with_null {less : Less Value} {order : Value → Value → Ordering}
    [Std.TransCmp order] (nullBelow : ∀ value, less .null value = .ok (!value.isNull))
    (notBelowNull : ∀ value, less value .null = .ok false)
    (nullFirst : ∀ value, IsScalar value → value ≠ .null → order .null value = .lt)
    (rest : left ≠ .null → right ≠ .null →
      less left right = .ok (decide (order left right = .lt))) :
    less left right = .ok (decide (order left right = .lt)) := by
  by_cases leftNull : left = .null
  · subst leftNull
    rw [nullBelow]
    by_cases rightNull : right = .null
    · subst rightNull
      have self : order .null .null = .eq := Std.ReflCmp.compare_self
      rw [self]
      rfl
    · rw [nullFirst right rightScalar rightNull]
      cases right <;> first | rfl | exact absurd rfl rightNull
  · by_cases rightNull : right = .null
    · subst rightNull
      rw [notBelowNull, Std.OrientedCmp.gt_of_lt (nullFirst left leftScalar leftNull)]
      rfl
    · exact rest leftNull rightNull

omit leftScalar in
theorem natural_null_first (given : right ≠ .null) : naturalOrder .null right = .lt := by
  have nullScalar : IsScalar .null := trivial
  rw [natural_order_eq_compare nullScalar rightScalar]
  cases right <;> first | rfl | exact absurd rfl given | exact rightScalar.elim

theorem key_less_natural (meets : left ≠ .null → right ≠ .null → familyOf left = familyOf right) :
    keyLess left right = .ok (decide (naturalOrder left right = .lt)) := by
  refine decides_with_null leftScalar rightScalar (fun value => by cases value <;> rfl)
    (fun value => by cases value <;> rfl) (fun _ scalar => natural_null_first scalar) ?_
  intro leftGiven rightGiven
  have given : keyLess left right = valueLess left right := by
    cases left <;> cases right <;>
      first | rfl | exact absurd rfl leftGiven | exact absurd rfl rightGiven
  rw [given]
  exact value_less_natural leftScalar rightScalar (family_of_given leftGiven)
    (meets leftGiven rightGiven)

theorem mixed_less_mixed : mixedLess left right = .ok (decide (mixedOrder left right = .lt)) := by
  refine decides_with_null leftScalar rightScalar (fun value => by cases value <;> rfl)
    (fun value => by cases value <;> rfl) ?_ ?_
  · intro value _ given
    cases value <;> first | rfl | exact absurd rfl given
  · intro leftGiven rightGiven
    have given : mixedLess left right =
        if left.kindName = right.kindName then valueLess left right
        else .ok (left.kindName < right.kindName) := by
      cases left <;> cases right <;>
        first | rfl | exact absurd rfl leftGiven | exact absurd rfl rightGiven
    have sameNulls : compareOn (fun value : Value => !value.isNull) left right = .eq := by
      cases left <;> cases right <;>
        first | rfl | exact absurd rfl leftGiven | exact absurd rfl rightGiven
    have order : mixedOrder left right =
        (Ord.compare left.kindName right.kindName).then (naturalOrder left right) := by
      rw [mixedOrder, compareLex, sameNulls]
      rfl
    rw [given, order]
    by_cases kinds : left.kindName = right.kindName
    · have level : Ord.compare left.kindName right.kindName = .eq := by
        rw [kinds]
        exact Std.ReflCmp.compare_self
      rw [if_pos kinds, level]
      exact value_less_natural leftScalar rightScalar (family_of_given leftGiven)
        (family_of_kind leftScalar rightScalar kinds)
    · have apart : Ord.compare left.kindName right.kindName =
          if left.kindName < right.kindName then .lt else .gt := by
        change compareOfLessAndEq left.kindName right.kindName = _
        rw [compareOfLessAndEq, if_neg kinds]
      rw [if_neg kinds, apart]
      by_cases lower : left.kindName < right.kindName <;> simp [lower]

omit leftScalar rightScalar in
theorem key_less_fails (isNumber : familyOf left = .number) (isText : familyOf right = .text) :
    (∃ failure, keyLess left right = .error failure) ∧
      ∃ failure, keyLess right left = .error failure := by
  obtain ⟨text, rfl⟩ := text_of_family isText
  cases left <;> cases isNumber <;>
    simp [keyLess, valueLess, Value.equal, Value.order, Value.number?, bind, Except.bind]

end Pairs

/-- Null stands before everything else, and beyond null the families do not change. -/
def KeepsFamily (left right : Value) : Prop :=
  familyOf left = .null ∨ familyOf left = familyOf right

instance : Trans KeepsFamily KeepsFamily KeepsFamily where
  trans := by
    rintro first second third (null | same) (otherNull | otherSame)
    · exact .inl null
    · exact .inl null
    · exact .inl (same.trans otherNull)
    · exact .inr (same.trans otherSame)

theorem null_not_behind {value : Value} (given : value ≠ .null) :
    ¬Settled keyLess value .null := by
  rintro (below | notBelow)
  · cases value <;> cases below
  · cases value <;> first | exact given rfl | cases notBelow

theorem not_settled_of_fails {left right : Value}
    (fails : ∃ failure, keyLess left right = .error failure)
    (turnedFails : ∃ failure, keyLess right left = .error failure) :
    ¬Settled keyLess left right := by
  obtain ⟨_, failed⟩ := fails
  obtain ⟨_, turnedFailed⟩ := turnedFails
  rintro (below | notBelow)
  · rw [failed] at below
    cases below
  · rw [turnedFailed] at notBelow
    cases notBelow

theorem keeps_family_of_settled {left right : Value} (leftScalar : IsScalar left)
    (rightScalar : IsScalar right) (settled : Settled keyLess left right) :
    KeepsFamily left right := by
  rcases scalar_families leftScalar with rfl | isNumber | isText
  · exact .inl rfl
  · have given : left ≠ .null := by rintro rfl; cases isNumber
    rcases scalar_families rightScalar with rfl | otherNumber | otherText
    · exact absurd settled (null_not_behind given)
    · exact .inr (isNumber.trans otherNumber.symm)
    · obtain ⟨fails, turnedFails⟩ := key_less_fails isNumber otherText
      exact absurd settled (not_settled_of_fails fails turnedFails)
  · have given : left ≠ .null := by rintro rfl; cases isText
    rcases scalar_families rightScalar with rfl | otherNumber | otherText
    · exact absurd settled (null_not_behind given)
    · obtain ⟨turnedFails, fails⟩ := key_less_fails otherNumber isText
      exact absurd settled (not_settled_of_fails fails turnedFails)
    · exact .inr (isText.trans otherText.symm)

section Columns

variable {key : Value → Value} {rows : List Value}

theorem is_mixed_of_perm {column other : List Value} (perm : column.Perm other) :
    IsMixed column ↔ IsMixed other := by
  simp only [IsMixed, perm.mem_iff]

theorem column_order_of_perm {column other : List Value} (perm : column.Perm other) :
    columnOrder column = columnOrder other := by
  simp only [columnOrder, is_mixed_of_perm perm]

variable (scalar : ∀ row ∈ rows, IsScalar (key row))

include scalar

theorem same_family_of_unmixed (unmixed : ¬IsMixed (rows.map key)) {left right : Value}
    (leftMember : left ∈ rows) (rightMember : right ∈ rows) (leftGiven : key left ≠ .null)
    (rightGiven : key right ≠ .null) : familyOf (key left) = familyOf (key right) := by
  have leftIn := List.mem_map_of_mem (f := key) leftMember
  have rightIn := List.mem_map_of_mem (f := key) rightMember
  rcases scalar_families (scalar left leftMember) with null | isNumber | isText
  · exact absurd null leftGiven
  · rcases scalar_families (scalar right rightMember) with null | otherNumber | otherText
    · exact absurd null rightGiven
    · exact isNumber.trans otherNumber.symm
    · exact absurd ⟨⟨_, leftIn, isNumber⟩, ⟨_, rightIn, otherText⟩⟩ unmixed
  · rcases scalar_families (scalar right rightMember) with null | otherNumber | otherText
    · exact absurd null rightGiven
    · exact absurd ⟨⟨_, rightIn, otherNumber⟩, ⟨_, leftIn, isText⟩⟩ unmixed
    · exact isText.trans otherText.symm

theorem natural_sort_stable (unmixed : ¬IsMixed (rows.map key)) (direction : Direction) :
    ∃ sorted, sortDirected (fun left right => keyLess (key left) (key right)) direction rows =
        .ok sorted ∧
      IsStableSort (direction.directed (Function.onFun naturalOrder key)) rows sorted := by
  have decides : Decides (fun left right => keyLess (key left) (key right))
      (Function.onFun naturalOrder key) (· ∈ rows) := fun left right leftMember rightMember =>
    key_less_natural (scalar left leftMember) (scalar right rightMember)
      (same_family_of_unmixed scalar unmixed leftMember rightMember)
  exact sort_directed_stable decides direction rows fun _ member => member

theorem mixed_sort_stable (direction : Direction) :
    ∃ sorted, sortDirected (fun left right => mixedLess (key left) (key right)) direction rows =
        .ok sorted ∧
      IsStableSort (direction.directed (Function.onFun mixedOrder key)) rows sorted := by
  have decides : Decides (fun left right => mixedLess (key left) (key right))
      (Function.onFun mixedOrder key) (· ∈ rows) := fun left right leftMember rightMember =>
    mixed_less_mixed (scalar left leftMember) (scalar right rightMember)
  exact sort_directed_stable decides direction rows fun _ member => member

/-- A sort that came to an end has no number next to a text, and null only in front, so the column
has one family. -/
theorem unmixed_of_natural_sort {direction : Direction} {sorted : List Value}
    (ended : sortDirected (fun left right => keyLess (key left) (key right)) direction rows =
      .ok sorted) : ¬IsMixed (rows.map key) := by
  obtain ⟨turned, perm, settled⟩ := sort_directed_settled ended
  have keeps : (turned.map key).IsChain KeepsFamily := by
    rw [List.isChain_map]
    refine settled.imp_of_mem_imp fun left right leftMember rightMember compared => ?_
    exact keeps_family_of_settled (scalar left (perm.mem_iff.mp leftMember))
      (scalar right (perm.mem_iff.mp rightMember)) compared
  have pairs := List.isChain_iff_pairwise.mp keeps
  rw [← is_mixed_of_perm (perm.map key)]
  rintro ⟨⟨number, numberMember, isNumber⟩, text, textMember, isText⟩
  -- The text stands before the number or behind it; either way one would have to be of the other's
  -- family.
  obtain ⟨before, behind, parts⟩ := List.append_of_mem numberMember
  rw [parts] at pairs textMember
  obtain ⟨_, numberKeeps, across⟩ := List.pairwise_append.mp pairs
  rcases List.mem_append.mp textMember with earlier | later
  · have keep := across text earlier number List.mem_cons_self
    simp [KeepsFamily, isNumber, isText] at keep
  · rcases List.mem_cons.mp later with rfl | last
    · rw [isNumber] at isText
      cases isText
    · have keep := (List.pairwise_cons.mp numberKeeps).1 text last
      simp [KeepsFamily, isNumber, isText] at keep

/-- Sorting by the natural order fails on mixed columns and on no others. -/
theorem natural_sort_fails_iff (direction : Direction) :
    (∃ failure, sortDirected (fun left right => keyLess (key left) (key right)) direction rows =
      .error failure) ↔ IsMixed (rows.map key) := by
  constructor
  · rintro ⟨failure, failed⟩
    by_contra unmixed
    obtain ⟨sorted, found, _⟩ := natural_sort_stable scalar unmixed direction
    rw [found] at failed
    cases failed
  · intro mixed
    cases ended : sortDirected (fun left right => keyLess (key left) (key right)) direction
      rows with
    | error failure => exact ⟨failure, rfl⟩
    | ok sorted => exact absurd mixed (unmixed_of_natural_sort scalar ended)

theorem sort_rows_stable (direction : Direction) :
    ∃ sorted, sortRows key direction rows = .ok sorted ∧
      IsStableSort (direction.directed (Function.onFun (columnOrder (rows.map key)) key)) rows
        sorted := by
  unfold sortRows columnOrder
  by_cases mixed : IsMixed (rows.map key)
  · obtain ⟨failure, failed⟩ := (natural_sort_fails_iff scalar direction).mpr mixed
    rw [failed, if_pos mixed]
    exact mixed_sort_stable scalar direction
  · obtain ⟨sorted, found, sort⟩ := natural_sort_stable scalar mixed direction
    rw [found, if_neg mixed]
    exact ⟨sorted, rfl, sort⟩

end Columns

end QueryOptions.Memory
