import Mathlib.Data.List.Basic
import QueryOptions.Operator

/-!
Stable sorts. A list is a stable sort of another one when it is in order and items that stand in the
same place of the order keep their sequence. There is only one such list, so sorts that work in
different ways agree as soon as each of them is seen to be stable.
-/

namespace QueryOptions

def levelWith {α : Type} (order : α → α → Ordering) (item : α) (items : List α) : List α :=
  items.filter fun other => order item other = .eq

/-- The second list is in order and keeps every level of the first. -/
structure IsStableSort {α : Type} (order : α → α → Ordering) (source sorted : List α) : Prop where
  ordered : sorted.Pairwise fun left right => order left right ≠ .gt
  stable : ∀ item, levelWith order item sorted = levelWith order item source

section Levels

variable {α : Type} {order : α → α → Ordering}

theorem level_with_append (item : α) (left right : List α) :
    levelWith order item (left ++ right) =
      levelWith order item left ++ levelWith order item right :=
  List.filter_append left right

theorem mem_level_with {item other : α} {items : List α} :
    other ∈ levelWith order item items ↔ other ∈ items ∧ order item other = .eq := by
  simp [levelWith]

theorem level_with_eq_nil {item : α} {items : List α}
    (apart : ∀ other ∈ items, order item other ≠ .eq) : levelWith order item items = [] := by
  apply List.filter_eq_nil_iff.mpr
  intro other member level
  exact apart other member (of_decide_eq_true level)

end Levels

namespace IsStableSort

variable {α : Type} {order : α → α → Ordering}

theorem of_ordered {source : List α}
    (ordered : source.Pairwise fun left right => order left right ≠ .gt) :
    IsStableSort order source source where
  ordered := ordered
  stable := fun _ => rfl

theorem filter {source sorted : List α} (sort : IsStableSort order source sorted)
    (keeps : α → Bool) : IsStableSort order (source.filter keeps) (sorted.filter keeps) where
  ordered := sort.ordered.filter keeps
  stable := by
    intro item
    have level := sort.stable item
    unfold levelWith at level ⊢
    rw [List.filter_filter, List.filter_filter]
    have swapped (items : List α) :
        (items.filter fun other => decide (order item other = .eq) && keeps other) =
          (items.filter fun other => decide (order item other = .eq)).filter keeps := by
      rw [List.filter_filter]
      apply List.filter_congr
      intro other _
      rw [Bool.and_comm]
    rw [swapped, swapped, level]

variable [Std.TransCmp order]

theorem le_trans {first second third : α} (left : order first second ≠ .gt)
    (right : order second third ≠ .gt) : order first third ≠ .gt :=
  Ordering.isLE_iff_ne_gt.mp
    (Std.TransCmp.isLE_trans (Ordering.isLE_iff_ne_gt.mpr left) (Ordering.isLE_iff_ne_gt.mpr right))

theorem eq_of_le_of_le {first second : α} (left : order first second ≠ .gt)
    (right : order second first ≠ .gt) : order first second = .eq :=
  Std.OrientedCmp.isLE_antisymm (Ordering.isLE_iff_ne_gt.mpr left)
    (Ordering.isLE_iff_ne_gt.mpr right)

theorem mem_iff {source sorted : List α} (sort : IsStableSort order source sorted) (item : α) :
    item ∈ sorted ↔ item ∈ source := by
  have level := sort.stable item
  have self : order item item = .eq := Std.ReflCmp.compare_self
  constructor
  · intro member
    have inLevel : item ∈ levelWith order item sorted := mem_level_with.mpr ⟨member, self⟩
    rw [level] at inLevel
    exact (mem_level_with.mp inLevel).1
  · intro member
    have inLevel : item ∈ levelWith order item source := mem_level_with.mpr ⟨member, self⟩
    rw [← level] at inLevel
    exact (mem_level_with.mp inLevel).1

/-- Both heads are least, so they stand in one place, and there the levels agree. -/
theorem eq_of_levels {left right : List α}
    (leftOrdered : left.Pairwise fun first second => order first second ≠ .gt)
    (rightOrdered : right.Pairwise fun first second => order first second ≠ .gt)
    (levels : ∀ item, levelWith order item left = levelWith order item right) : left = right := by
  induction left generalizing right with
  | nil =>
      cases right with
      | nil => rfl
      | cons head rest =>
          have inLevel : head ∈ levelWith order head (head :: rest) :=
            mem_level_with.mpr ⟨List.mem_cons_self, Std.ReflCmp.compare_self⟩
          rw [← levels head] at inLevel
          cases inLevel
  | cons leftHead leftRest induction =>
      have inLeft : leftHead ∈ levelWith order leftHead (leftHead :: leftRest) :=
        mem_level_with.mpr ⟨List.mem_cons_self, Std.ReflCmp.compare_self⟩
      cases right with
      | nil =>
          rw [levels leftHead] at inLeft
          cases inLeft
      | cons rightHead rightRest =>
          have leastOf {first item : α} {rest : List α}
              (ordered : (first :: rest).Pairwise fun first second => order first second ≠ .gt)
              (member : item ∈ first :: rest) : order first item ≠ .gt := by
            rcases List.mem_cons.mp member with rfl | later
            · have self : order item item = .eq := Std.ReflCmp.compare_self
              rw [self]
              decide
            · exact (List.pairwise_cons.mp ordered).1 item later
          have inRight : rightHead ∈ levelWith order rightHead (rightHead :: rightRest) :=
            mem_level_with.mpr ⟨List.mem_cons_self, Std.ReflCmp.compare_self⟩
          rw [levels leftHead] at inLeft
          rw [← levels rightHead] at inRight
          have rightLe := leastOf rightOrdered (mem_level_with.mp inLeft).1
          have leftLe := leastOf leftOrdered (mem_level_with.mp inRight).1
          have same : order leftHead rightHead = .eq := eq_of_le_of_le leftLe rightLe
          have selfLevel : order leftHead leftHead = .eq := Std.ReflCmp.compare_self
          have heads := levels leftHead
          simp only [levelWith, List.filter_cons, same, selfLevel, decide_true, if_true,
            List.cons.injEq] at heads
          obtain ⟨rfl, _⟩ := heads
          have rests (item : α) : levelWith order item leftRest =
              levelWith order item rightRest := by
            have level := levels item
            simp only [levelWith, List.filter_cons] at level ⊢
            split at level
            · exact (List.cons.inj level).2
            · exact level
          rw [induction (List.pairwise_cons.mp leftOrdered).2 (List.pairwise_cons.mp rightOrdered).2
            rests]

theorem unique {source left right : List α} (leftSort : IsStableSort order source left)
    (rightSort : IsStableSort order source right) : left = right :=
  eq_of_levels leftSort.ordered rightSort.ordered fun item =>
    (leftSort.stable item).trans (rightSort.stable item).symm

/-- A level of the source is in order and a part of it, so sorting keeps it; the counts agree. -/
theorem merge_sort (order : α → α → Ordering) [Std.TransCmp order] (source : List α) :
    IsStableSort order source (source.mergeSort fun left right => order left right ≠ .gt) := by
  have trans (first second third : α) (left : decide (order first second ≠ .gt) = true)
      (right : decide (order second third ≠ .gt) = true) :
      decide (order first third ≠ .gt) = true :=
    decide_eq_true (le_trans (of_decide_eq_true left) (of_decide_eq_true right))
  have total (first second : α) :
      (decide (order first second ≠ .gt) || decide (order second first ≠ .gt)) = true := by
    have swapped : order second first = (order first second).swap := Std.OrientedCmp.eq_swap
    rw [swapped]
    cases order first second <;> rfl
  refine ⟨?_, ?_⟩
  · have ordered := List.pairwise_mergeSort trans total source
    exact ordered.imp of_decide_eq_true
  · intro item
    have levelOrdered : (levelWith order item source).Pairwise fun first second =>
        decide (order first second ≠ .gt) = true := by
      apply List.Pairwise.imp_of_mem (R := fun _ _ => True)
      · intro first second firstMember secondMember _
        have same : order first second = .eq :=
          Std.TransCmp.eq_trans (Std.OrientedCmp.eq_symm (mem_level_with.mp firstMember).2)
            (mem_level_with.mp secondMember).2
        rw [same]
        decide
      · exact List.pairwise_of_forall fun _ _ => trivial
    have kept := List.sublist_mergeSort trans total levelOrdered List.filter_sublist
    have keptLevel := kept.filter fun other => decide (order item other = .eq)
    have sameCount : (levelWith order item
        (source.mergeSort fun left right => order left right ≠ .gt)).length =
          (levelWith order item source).length :=
      ((List.mergeSort_perm source _).filter _).length_eq
    unfold levelWith at keptLevel sameCount ⊢
    rw [List.filter_filter] at keptLevel
    simp only [Bool.and_self] at keptLevel
    exact (keptLevel.eq_of_length sameCount.symm).symm

theorem insert {source below above : List α} {item : α}
    (sort : IsStableSort order source (below ++ above))
    (notBelow : ∀ other ∈ below, order item other ≠ .lt)
    (isBelow : ∀ other ∈ above, order item other = .lt) :
    IsStableSort order (source ++ [item]) (below ++ item :: above) where
  ordered := by
    obtain ⟨belowOrdered, aboveOrdered, across⟩ := List.pairwise_append.mp sort.ordered
    have itemAbove : (item :: above).Pairwise fun left right => order left right ≠ .gt := by
      refine List.pairwise_cons.mpr ⟨?_, aboveOrdered⟩
      intro other member
      rw [isBelow other member]
      decide
    refine List.pairwise_append.mpr ⟨belowOrdered, itemAbove, ?_⟩
    intro left leftMember right rightMember
    rcases List.mem_cons.mp rightMember with rfl | later
    · intro greater
      exact notBelow left leftMember (Std.OrientedCmp.lt_of_gt greater)
    · exact across left leftMember right later
  stable := by
    intro probe
    have level := sort.stable probe
    rw [level_with_append] at level
    have split : item :: above = [item] ++ above := rfl
    rw [level_with_append probe source, ← level, level_with_append, split, level_with_append,
      List.append_assoc]
    by_cases same : order probe item = .eq
    · have none : levelWith order probe above = [] := by
        apply level_with_eq_nil
        intro other member together
        have itemLevel : order item other = .eq :=
          Std.TransCmp.eq_trans (Std.OrientedCmp.eq_symm same) together
        rw [isBelow other member] at itemLevel
        cases itemLevel
      rw [none, List.append_nil, List.nil_append]
    · have none : levelWith order probe [item] = [] := by
        apply level_with_eq_nil
        intro other member
        rwa [List.mem_singleton.mp member]
      rw [none, List.nil_append, List.append_nil]

theorem of_falling {source : List α}
    (falling : source.Pairwise fun left right => order left right = .gt) :
    IsStableSort order source source.reverse where
  ordered := by
    rw [List.pairwise_reverse]
    apply falling.imp
    intro left right greater
    rw [Std.OrientedCmp.lt_of_gt greater]
    decide
  stable := by
    intro item
    unfold levelWith
    rw [List.filter_reverse]
    have levelFalls := falling.filter fun other => decide (order item other = .eq)
    match level : source.filter fun other => decide (order item other = .eq) with
    | [] => rfl
    | [_] => rfl
    | first :: second :: rest =>
        rw [level] at levelFalls
        have firstLevel : order item first = .eq := by
          have member : first ∈ levelWith order item source := by
            rw [levelWith, level]
            exact List.mem_cons_self
          exact (mem_level_with.mp member).2
        have secondLevel : order item second = .eq := by
          have member : second ∈ levelWith order item source := by
            rw [levelWith, level]
            exact List.mem_cons_of_mem first List.mem_cons_self
          exact (mem_level_with.mp member).2
        have together : order first second = .eq :=
          Std.TransCmp.eq_trans (Std.OrientedCmp.eq_symm firstLevel) secondLevel
        rw [(List.pairwise_cons.mp levelFalls).1 second List.mem_cons_self] at together
        cases together

theorem reverse {source sorted : List α} (sort : IsStableSort order source.reverse sorted) :
    IsStableSort (fun left right => order right left) source sorted.reverse where
  ordered := List.pairwise_reverse.mpr sort.ordered
  stable := by
    intro item
    have opposite (items : List α) :
        levelWith (fun left right => order right left) item items = levelWith order item items := by
      apply List.filter_congr
      intro other _
      rw [decide_eq_decide]
      exact ⟨Std.OrientedCmp.eq_symm, Std.OrientedCmp.eq_symm⟩
    have level := sort.stable item
    rw [opposite, opposite]
    unfold levelWith at level ⊢
    rw [List.filter_reverse] at level ⊢
    rw [level, List.reverse_reverse]

/-- Sorting by a second order first and then by a first one sorts by both. -/
theorem andThen {second : α → α → Ordering} {source middle sorted : List α}
    (later : IsStableSort second source middle) (sort : IsStableSort order middle sorted) :
    IsStableSort (compareLex order second) source sorted where
  ordered := by
    have levels (item : α) : (levelWith order item sorted).Pairwise fun left right =>
        second left right ≠ .gt := by
      rw [sort.stable item]
      exact later.ordered.filter _
    have ordered := sort.ordered
    clear sort later
    induction sorted with
    | nil => exact List.Pairwise.nil
    | cons head rest induction =>
        obtain ⟨least, restOrdered⟩ := List.pairwise_cons.mp ordered
        refine List.pairwise_cons.mpr ⟨?_, induction ?_ restOrdered⟩
        · intro other member
          have self : order head head = .eq := Std.ReflCmp.compare_self
          have level := levels head
          rw [levelWith, List.filter_cons, if_pos (decide_eq_true self)] at level
          unfold compareLex
          cases placed : order head other with
          | lt => simp
          | gt => exact absurd placed (least other member)
          | eq =>
              exact (List.pairwise_cons.mp level).1 other
                (List.mem_filter.mpr ⟨member, decide_eq_true placed⟩)
        · intro item
          exact (levels item).sublist ((List.sublist_cons_self head rest).filter _)
  stable := by
    intro item
    have both (items : List α) : levelWith (compareLex order second) item items =
        levelWith second item (levelWith order item items) := by
      unfold levelWith
      rw [List.filter_filter]
      apply List.filter_congr
      intro other _
      simp [compareLex, Ordering.then_eq_eq, Bool.and_comm]
    have swap (items : List α) : levelWith second item (levelWith order item items) =
        levelWith order item (levelWith second item items) := by
      unfold levelWith
      rw [List.filter_filter, List.filter_filter]
      apply List.filter_congr
      intro other _
      rw [Bool.and_comm]
    rw [both, sort.stable, swap, later.stable, ← swap, ← both]

theorem eq_merge_sort {source sorted : List α} (sort : IsStableSort order source sorted) :
    sorted = source.mergeSort fun left right => order left right ≠ .gt :=
  sort.unique (merge_sort order source)

theorem perm {source sorted : List α} (sort : IsStableSort order source sorted) :
    sorted.Perm source := by
  rw [sort.eq_merge_sort]
  exact List.mergeSort_perm source _

theorem merge_sort_congr {β : Type} {first second : β → β → Ordering} {items : List β}
    (agree : ∀ left ∈ items, ∀ right ∈ items, first left right = second left right) :
    (items.mergeSort fun left right => first left right ≠ .gt) =
      items.mergeSort fun left right => second left right ≠ .gt := by
  have mapped := List.map_mergeSort (f := id) (l := items)
    (r := fun left right => decide (first left right ≠ .gt))
    (s := fun left right => decide (second left right ≠ .gt))
    (fun left leftMember right rightMember => by
      rw [agree left leftMember right rightMember]
      rfl)
  rw [List.map_id, List.map_id] at mapped
  exact mapped

end IsStableSort

def Direction.directed {α : Type} (direction : Direction) (order : α → α → Ordering) :
    α → α → Ordering :=
  match direction with
  | .ascending => order
  | .descending => fun left right => order right left

instance {α : Type} (direction : Direction) (order : α → α → Ordering) [Std.TransCmp order] :
    Std.TransCmp (direction.directed order) := by
  cases direction with
  | ascending => exact inferInstanceAs (Std.TransCmp order)
  | descending => exact inferInstanceAs (Std.TransCmp fun left right => order right left)

/-- The orders of some keys, each in its direction, one after the other. -/
def lexOrder {α κ : Type} (order : κ → α → α → Ordering) :
    List (κ × Direction) → α → α → Ordering
  | [] => fun _ _ => .eq
  | (key, direction) :: keys =>
      compareLex (direction.directed (order key)) (lexOrder order keys)

instance {α κ : Type} (order : κ → α → α → Ordering) [∀ key, Std.TransCmp (order key)]
    (keys : List (κ × Direction)) : Std.TransCmp (lexOrder order keys) := by
  induction keys with
  | nil => exact { eq_swap := rfl, isLE_trans := fun _ _ => rfl }
  | cons key keys induction =>
      unfold lexOrder
      infer_instance

instance onFunTransCmp {α β : Type} (order : α → α → Ordering) [Std.TransCmp order]
    (root : β → α) : Std.TransCmp (Function.onFun order root) where
  eq_swap := by
    intro left right
    have swapped : order (root left) (root right) = (order (root right) (root left)).swap :=
      Std.OrientedCmp.eq_swap
    exact swapped
  isLE_trans := by
    intro first second third lower upper
    have between : (order (root first) (root third)).isLE := Std.TransCmp.isLE_trans lower upper
    exact between

section Blocks

variable {α β : Type} {order : α → α → Ordering} {root : β → α} {block : α → List β}

theorem level_with_flat_map (rooted : ∀ key, ∀ item ∈ block key, root item = key) (item : β)
    (keys : List α) :
    levelWith (Function.onFun order root) item (keys.flatMap block) =
      (levelWith order (root item) keys).flatMap block := by
  induction keys with
  | nil => rfl
  | cons key keys induction =>
      rw [List.flatMap_cons, level_with_append, induction]
      unfold levelWith
      rw [List.filter_cons]
      by_cases level : order (root item) key = .eq
      · rw [if_pos (decide_eq_true level), List.flatMap_cons]
        congr 1
        apply List.filter_eq_self.mpr
        intro other member
        exact decide_eq_true (by rw [Function.onFun_apply, rooted key other member, level])
      · rw [if_neg (by simpa using level)]
        have none : levelWith (Function.onFun order root) item (block key) = [] := by
          apply level_with_eq_nil
          intro other member
          rwa [Function.onFun_apply, rooted key other member]
        unfold levelWith at none
        rw [none, List.nil_append]

theorem IsStableSort.flat_map [Std.TransCmp order] {source sorted : List α}
    (sort : IsStableSort order source sorted)
    (rooted : ∀ key, ∀ item ∈ block key, root item = key) :
    IsStableSort (Function.onFun order root) (source.flatMap block) (sorted.flatMap block) where
  ordered := by
    rw [List.pairwise_flatMap]
    constructor
    · intro key _
      apply List.Pairwise.imp_of_mem (R := fun _ _ => True)
      · intro left right leftMember rightMember _
        have self : order key key = .eq := Std.ReflCmp.compare_self
        rw [Function.onFun_apply, rooted key left leftMember, rooted key right rightMember, self]
        decide
      · exact List.pairwise_of_forall fun _ _ => trivial
    · apply sort.ordered.imp
      intro leftKey rightKey le left leftMember right rightMember
      rw [Function.onFun_apply, rooted leftKey left leftMember, rooted rightKey right rightMember]
      exact le
  stable := by
    intro item
    rw [level_with_flat_map rooted, level_with_flat_map rooted, sort.stable]

end Blocks

end QueryOptions
