import QueryOptions.Memory.Ordering
import QueryOptions.Proofs.Order.StableSort

/-!
Sorting in memory is stable. Insertion by halving finds the place behind all that an item is not
below, a leading run is in order or falls throughout, and so the whole sort is the stable one for
any comparison that decides a total order on the items at hand.
-/

namespace QueryOptions.Memory

/-- A comparison that never fails on valid items and decides an order there. -/
def Decides {α : Type} (less : Less α) (order : α → α → Ordering) (valid : α → Prop) : Prop :=
  ∀ left right, valid left → valid right → less left right = .ok (decide (order left right = .lt))

variable {α : Type} {less : Less α} {order : α → α → Ordering} {valid : α → Prop}

variable [Std.TransCmp order]

theorem half_of_rest {sorted above : List α} {middle : α}
    (rest : sorted.drop (sorted.length / 2) = middle :: above) :
    (sorted.take (sorted.length / 2)).length < sorted.length ∧ above.length < sorted.length := by
  have size := congrArg List.length rest
  simp only [List.length_drop, List.length_cons, List.length_take] at size ⊢
  omega

/-- The induction is on the length, which halving brings down on either side of the middle. -/
theorem insert_sorted_places (decides : Decides less order valid) {element : α}
    (elementValid : valid element) (sorted : List α) (sortedValid : ∀ item ∈ sorted, valid item)
    (ordered : sorted.Pairwise fun left right => order left right ≠ .gt) :
    ∃ below above, sorted = below ++ above ∧
      insertSorted less element sorted = .ok (below ++ element :: above) ∧
      (∀ item ∈ below, order element item ≠ .lt) ∧ ∀ item ∈ above, order element item = .lt := by
  induction size : sorted.length using Nat.strongRecOn generalizing sorted with
  | ind length induction =>
      subst size
      have whole := List.take_append_drop (sorted.length / 2) sorted
      rw [insertSorted]
      split
      · rename_i nothing
        have short := congrArg List.length nothing
        rw [List.length_drop, List.length_nil] at short
        have empty : sorted = [] := List.eq_nil_of_length_eq_zero (by omega)
        subst empty
        exact ⟨[], [], rfl, rfl, by simp, by simp⟩
      · rename_i middle above rest
        obtain ⟨belowShorter, aboveShorter⟩ := half_of_rest rest
        generalize sorted.take (sorted.length / 2) = below at *
        rw [rest] at whole
        subst whole
        obtain ⟨belowOrdered, aboveOrdered, across⟩ := List.pairwise_append.mp ordered
        obtain ⟨middleLeast, aboveRestOrdered⟩ := List.pairwise_cons.mp aboveOrdered
        rw [decides element middle elementValid (sortedValid middle (by simp))]
        by_cases lower : order element middle = .lt
        · obtain ⟨first, second, parts, inserted, notBelow, isBelow⟩ :=
            induction below.length belowShorter below
              (fun item member => sortedValid item (by simp [member])) belowOrdered rfl
          refine ⟨first, second ++ middle :: above, ?_, ?_, notBelow, ?_⟩
          · rw [parts, List.append_assoc]
          · simp [lower, inserted, bind, Except.bind, pure, Except.pure]
          · intro item member
            rcases List.mem_append.mp member with inSecond | later
            · exact isBelow item inSecond
            · rcases List.mem_cons.mp later with rfl | inAbove
              · exact lower
              · exact Std.TransCmp.lt_of_lt_of_isLE lower
                  (Ordering.isLE_iff_ne_gt.mpr (middleLeast item inAbove))
        · obtain ⟨first, second, parts, inserted, notBelow, isBelow⟩ :=
            induction above.length aboveShorter above
              (fun item member => sortedValid item (by simp [member])) aboveRestOrdered rfl
          refine ⟨below ++ middle :: first, second, ?_, ?_, ?_, isBelow⟩
          · rw [parts, List.append_assoc, List.cons_append]
          · simp [lower, inserted, bind, Except.bind, pure, Except.pure]
          · intro item member
            rcases List.mem_append.mp member with inBelow | later
            · intro less
              exact lower (Std.TransCmp.lt_of_lt_of_isLE less
                (Ordering.isLE_iff_ne_gt.mpr (across item inBelow middle List.mem_cons_self)))
            · rcases List.mem_cons.mp later with rfl | inFirst
              · exact lower
              · exact notBelow item inFirst

theorem insert_sorted_stable (decides : Decides less order valid) {source sorted : List α}
    {element : α} (elementValid : valid element) (sourceValid : ∀ item ∈ source, valid item)
    (sort : IsStableSort order source sorted) :
    ∃ longer, insertSorted less element sorted = .ok longer ∧
      IsStableSort order (source ++ [element]) longer := by
  have sortedValid : ∀ item ∈ sorted, valid item := fun item member =>
    sourceValid item ((sort.mem_iff item).mp member)
  obtain ⟨below, above, rfl, inserted, notBelow, isBelow⟩ :=
    insert_sorted_places decides elementValid sorted sortedValid sort.ordered
  exact ⟨below ++ element :: above, inserted, sort.insert notBelow isBelow⟩

theorem insert_all_stable (decides : Decides less order valid) {source sorted : List α}
    (elements : List α) (elementsValid : ∀ item ∈ elements, valid item)
    (sourceValid : ∀ item ∈ source, valid item) (sort : IsStableSort order source sorted) :
    ∃ longer,
      elements.foldlM (fun sorted element => insertSorted less element sorted) sorted =
          .ok longer ∧
        IsStableSort order (source ++ elements) longer := by
  induction elements generalizing source sorted with
  | nil => exact ⟨sorted, rfl, by rwa [List.append_nil]⟩
  | cons element elements induction =>
      have elementValid := elementsValid element List.mem_cons_self
      obtain ⟨longer, inserted, longerSort⟩ :=
        insert_sorted_stable decides elementValid sourceValid sort
      obtain ⟨whole, rest, wholeSort⟩ := induction
        (fun item member => elementsValid item (List.mem_cons_of_mem element member))
        (by
          intro item member
          rcases List.mem_append.mp member with earlier | new
          · exact sourceValid item earlier
          · rwa [List.mem_singleton.mp new])
        longerSort
      refine ⟨whole, ?_, by rwa [List.append_assoc] at wholeSort⟩
      rw [List.foldlM_cons, inserted]
      exact rest

/-- How each item of a run stands to the items before it, the last item coming first. -/
def Runs (order : α → α → Ordering) (falling : Bool) (left right : α) : Prop :=
  decide (order left right = .lt) = falling

theorem runs_trans {falling : Bool} {first second third : α}
    (left : Runs order falling first second) (right : Runs order falling second third) :
    Runs order falling first third := by
  cases falling with
  | true =>
      exact decide_eq_true (Std.TransCmp.lt_trans (of_decide_eq_true left)
        (of_decide_eq_true right))
  | false =>
      refine decide_eq_false fun less => ?_
      have notLeft : order first second ≠ .lt := of_decide_eq_false left
      have notRight : order second third ≠ .lt := of_decide_eq_false right
      have secondFirst : (order second first).isLE := by
        rw [Ordering.isLE_iff_ne_gt]
        exact fun greater => notLeft (Std.OrientedCmp.lt_of_gt greater)
      exact notRight (Std.TransCmp.lt_of_isLE_of_lt secondFirst less)

theorem take_run_spec (decides : Decides less order valid) (falling : Bool) (taken : List α)
    (last : α) (rest : List α) (takenValid : ∀ item ∈ last :: taken, valid item)
    (restValid : ∀ item ∈ rest, valid item)
    (runs : (last :: taken).Pairwise (Runs order falling)) :
    ∃ run remaining, takeRun less falling taken last rest = .ok (run, remaining) ∧
      run.reverse ++ remaining = (last :: taken).reverse ++ rest ∧
      run.Pairwise (Runs order falling) := by
  induction rest generalizing taken last with
  | nil => exact ⟨last :: taken, [], rfl, rfl, runs⟩
  | cons next rest induction =>
      have nextValid := restValid next List.mem_cons_self
      have lastValid := takenValid last List.mem_cons_self
      unfold takeRun
      rw [decides next last nextValid lastValid]
      by_cases goesOn : Runs order falling next last
      · have longer : (next :: last :: taken).Pairwise (Runs order falling) := by
          refine List.pairwise_cons.mpr ⟨?_, runs⟩
          intro item member
          rcases List.mem_cons.mp member with rfl | earlier
          · exact goesOn
          · exact runs_trans goesOn ((List.pairwise_cons.mp runs).1 item earlier)
        obtain ⟨run, remaining, took, same, runsOn⟩ := induction (last :: taken) next
          (by
            intro item member
            rcases List.mem_cons.mp member with rfl | earlier
            · exact nextValid
            · exact takenValid item earlier)
          (fun item member => restValid item (List.mem_cons_of_mem next member)) longer
        refine ⟨run, remaining, ?_, ?_, runsOn⟩
        · have step : decide (order next last = .lt) = falling := goesOn
          simp only [bind, Except.bind, step, if_true]
          exact took
        · rw [same, List.reverse_cons, List.append_assoc]
          rfl
      · refine ⟨last :: taken, next :: rest, ?_, rfl, runs⟩
        have step : ¬decide (order next last = .lt) = falling := goesOn
        simp only [bind, Except.bind, step, if_false]
        rfl

/-- A run is sorted as it was taken when it falls, and turned around when it does not. -/
theorem run_stable {falling : Bool} {run : List α} (runs : run.Pairwise (Runs order falling)) :
    IsStableSort order run.reverse (if falling then run else run.reverse) := by
  cases falling with
  | true =>
      have falls : run.reverse.Pairwise fun left right => order left right = .gt := by
        rw [List.pairwise_reverse]
        exact runs.imp fun less => Std.OrientedCmp.gt_of_lt (of_decide_eq_true less)
      have sort := IsStableSort.of_falling falls
      rwa [List.reverse_reverse] at sort
  | false =>
      apply IsStableSort.of_ordered
      rw [List.pairwise_reverse]
      apply runs.imp
      intro left right notLess greater
      exact of_decide_eq_false notLess (Std.OrientedCmp.lt_of_gt greater)

theorem sort_by_stable (decides : Decides less order valid) (items : List α)
    (itemsValid : ∀ item ∈ items, valid item) :
    ∃ sorted, sortBy less items = .ok sorted ∧ IsStableSort order items sorted := by
  match items, itemsValid with
  | [], _ => exact ⟨[], rfl, .of_ordered List.Pairwise.nil⟩
  | [only], _ => exact ⟨[only], rfl, .of_ordered (List.pairwise_singleton _ only)⟩
  | first :: second :: rest, itemsValid =>
      have firstValid := itemsValid first (by simp)
      have secondValid := itemsValid second (by simp)
      have pairRuns : [second, first].Pairwise
          (Runs order (decide (order second first = .lt))) := by
        simp [Runs]
      obtain ⟨run, remaining, took, same, runs⟩ := take_run_spec decides _ [first] second rest
        (by simp [firstValid, secondValid]) (fun item member => itemsValid item (by simp [member]))
        pairRuns
      have wholeSame : run.reverse ++ remaining = first :: second :: rest := same
      have partValid (item : α) (member : item ∈ run.reverse ++ remaining) : valid item :=
        itemsValid item (by rwa [wholeSame] at member)
      obtain ⟨sorted, inserted, sort⟩ := insert_all_stable decides remaining
        (fun item member => partValid item (List.mem_append_right _ member))
        (fun item member => partValid item (List.mem_append_left _ member)) (run_stable runs)
      rw [wholeSame] at sort
      refine ⟨sorted, ?_, sort⟩
      simp only [sortBy, decides second first secondValid firstValid, bind, Except.bind, took]
      exact inserted

theorem sort_directed_stable (decides : Decides less order valid) (direction : Direction)
    (items : List α) (itemsValid : ∀ item ∈ items, valid item) :
    ∃ sorted, sortDirected less direction items = .ok sorted ∧
      IsStableSort (direction.directed order) items sorted := by
  cases direction with
  | ascending => exact sort_by_stable decides items itemsValid
  | descending =>
      obtain ⟨sorted, found, sort⟩ := sort_by_stable decides items.reverse
        fun item member => itemsValid item (List.mem_reverse.mp member)
      refine ⟨sorted.reverse, ?_, sort.reverse⟩
      rw [sortDirected, found]
      rfl

/-- Sorting by one key after the other, the last one first, sorts by all of them, as long as each
pass sorts whatever the passes before it have made of the items. The induction is on the keys; the
first one is applied last. -/
theorem passes_stable {κ ε : Type} {order : κ → α → α → Ordering}
    [∀ key, Std.TransCmp (order key)] {pass : List α → κ × Direction → Except ε (List α)}
    (keys : List (κ × Direction)) (items : List α)
    (sorts : ∀ key ∈ keys, ∀ arrangement : List α, arrangement.Perm items →
      ∃ sorted, pass arrangement key = .ok sorted ∧
        IsStableSort (key.2.directed (order key.1)) arrangement sorted) :
    ∃ sorted, keys.reverse.foldlM pass items = .ok sorted ∧
      IsStableSort (lexOrder order keys) items sorted := by
  induction keys with
  | nil =>
      refine ⟨items, rfl, .of_ordered ?_⟩
      exact List.pairwise_of_forall fun _ _ => by simp [lexOrder]
  | cons key keys induction =>
      obtain ⟨middle, passed, middleSort⟩ := induction fun other member =>
        sorts other (List.mem_cons_of_mem key member)
      obtain ⟨sorted, found, sort⟩ := sorts key List.mem_cons_self middle middleSort.perm
      refine ⟨sorted, ?_, middleSort.andThen sort⟩
      rw [List.reverse_cons, List.foldlM_append, passed]
      simp only [bind, Except.bind, List.foldlM_cons, List.foldlM_nil, found]
      rfl

end QueryOptions.Memory
