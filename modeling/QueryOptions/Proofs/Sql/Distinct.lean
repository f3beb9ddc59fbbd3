import Mathlib.Data.List.Nodup
import QueryOptions.Sql.Execution

/-!
Firsts and pages of lists. The firsts by key have every key once, however the items are ordered, and
among blocks of items that share a key they are the heads of the blocks. A page is a contiguous part
of its list, which a membership test finds again.
-/

namespace QueryOptions.Sql

section Firsts

variable {α β κ : Type} {key : β → κ} {keyOf : α → κ} {block : α → List β}

theorem filter_flat_map_keyed (keyed : ∀ item, ∀ part ∈ block item, key part = keyOf item)
    (keeps : κ → Bool) (items : List α) :
    ((items.flatMap block).filter fun part => keeps (key part)) =
      (items.filter fun item => keeps (keyOf item)).flatMap block := by
  induction items with
  | nil => rfl
  | cons item items induction =>
      rw [List.flatMap_cons, List.filter_append, induction, List.filter_cons]
      by_cases kept : keeps (keyOf item) = true
      · rw [if_pos kept, List.flatMap_cons]
        congr 1
        apply List.filter_eq_self.mpr
        intro part member
        rwa [keyed item part member]
      · rw [if_neg kept]
        have dropped : ((block item).filter fun part => keeps (key part)) = [] := by
          apply List.filter_eq_nil_iff.mpr
          intro part member
          rwa [keyed item part member]
        rw [dropped, List.nil_append]

variable [DecidableEq κ]

theorem first_by_key_seen {seen : List κ} {items rest : List β}
    (known : ∀ item ∈ items, key item ∈ seen) :
    firstByKey key seen (items ++ rest) = firstByKey key seen rest := by
  induction items with
  | nil => rfl
  | cons item items induction =>
      have here : seen.contains (key item) = true :=
        List.contains_iff_mem.mpr (known item List.mem_cons_self)
      rw [List.cons_append, firstByKey, if_pos here]
      exact induction fun other member => known other (List.mem_cons_of_mem item member)

/-- The induction is on the blocks; the keys of the later ones stay unseen. -/
theorem first_by_key_flat_map (keyed : ∀ item, ∀ part ∈ block item, key part = keyOf item)
    {items : List α} {seen : List κ} (distinct : (items.map keyOf).Nodup)
    (unseen : ∀ item ∈ items, keyOf item ∉ seen) :
    firstByKey key seen (items.flatMap block) =
      items.flatMap fun item => (block item).head?.toList := by
  induction items generalizing seen with
  | nil => rfl
  | cons item items induction =>
      rw [List.map_cons, List.nodup_cons] at distinct
      obtain ⟨apart, distinctRest⟩ := distinct
      have unseenRest : ∀ other ∈ items, keyOf other ∉ seen := fun other member =>
        unseen other (List.mem_cons_of_mem item member)
      rw [List.flatMap_cons, List.flatMap_cons]
      cases parts : block item with
      | nil => exact induction distinctRest unseenRest
      | cons first others =>
          have firstKey : key first = keyOf item :=
            keyed item first (by rw [parts]; exact List.mem_cons_self)
          have fresh : seen.contains (key first) = false := by
            rw [firstKey, ← Bool.not_eq_true, List.contains_iff_mem]
            exact unseen item List.mem_cons_self
          have unseenLater : ∀ other ∈ items, keyOf other ∉ key first :: seen := by
            intro other member found
            rcases List.mem_cons.mp found with same | old
            · exact apart (List.mem_map.mpr ⟨other, member, by rw [same, firstKey]⟩)
            · exact unseenRest other member old
          rw [List.cons_append, firstByKey, if_neg (by rw [fresh]; exact Bool.false_ne_true),
            first_by_key_seen, induction distinctRest unseenLater]
          · rfl
          · intro other member
            rw [keyed item other (by rw [parts]; exact List.mem_cons_of_mem first member), firstKey]
            exact List.mem_cons_self

end Firsts

section Keys

variable {β κ : Type} [DecidableEq κ] {key : β → κ}

theorem first_by_key_sublist (key : β → κ) (seen : List κ) (items : List β) :
    (firstByKey key seen items).Sublist items := by
  induction items generalizing seen with
  | nil => exact List.Sublist.refl []
  | cons item items induction =>
      unfold firstByKey
      split
      · exact (induction seen).cons item
      · exact (induction (key item :: seen)).cons_cons item

theorem mem_keys_of_firsts {seen : List κ} {items : List β} {found : κ} :
    found ∈ (firstByKey key seen items).map key ↔ found ∈ items.map key ∧ found ∉ seen := by
  induction items generalizing seen with
  | nil => simp [firstByKey]
  | cons item items induction =>
      unfold firstByKey
      by_cases known : key item ∈ seen
      · rw [if_pos (List.contains_iff_mem.mpr known), induction, List.map_cons, List.mem_cons]
        constructor
        · rintro ⟨later, unseen⟩
          exact ⟨.inr later, unseen⟩
        · rintro ⟨rfl | later, unseen⟩
          · exact absurd known unseen
          · exact ⟨later, unseen⟩
      · rw [if_neg (by simpa using known), List.map_cons, List.mem_cons, induction, List.map_cons,
          List.mem_cons, List.mem_cons, not_or]
        by_cases same : found = key item
        · simp [same, known]
        · simp [same]

theorem keys_of_firsts_nodup (key : β → κ) (seen : List κ) (items : List β) :
    ((firstByKey key seen items).map key).Nodup := by
  induction items generalizing seen with
  | nil => exact List.nodup_nil
  | cons item items induction =>
      unfold firstByKey
      split
      · exact induction seen
      · rw [List.map_cons, List.nodup_cons]
        refine ⟨?_, induction (key item :: seen)⟩
        intro later
        exact (mem_keys_of_firsts.mp later).2 List.mem_cons_self

theorem firsts_length_of_perm (key : β → κ) {left right : List β} (perm : left.Perm right) :
    (firstByKey key [] left).length = (firstByKey key [] right).length := by
  have keys : ((firstByKey key [] left).map key).Perm ((firstByKey key [] right).map key) := by
    refine (List.perm_ext_iff_of_nodup (keys_of_firsts_nodup key [] left)
      (keys_of_firsts_nodup key [] right)).mpr fun found => ?_
    rw [mem_keys_of_firsts, mem_keys_of_firsts, (perm.map key).mem_iff]
  have counted := keys.length_eq
  rwa [List.length_map, List.length_map] at counted

end Keys

section Pages

variable {α β : Type}

theorem cut_sublist (limit offset : Option Int) (items : List α) :
    (cut limit offset items).Sublist items := by
  unfold cut
  cases limit with
  | none => exact List.drop_sublist _ _
  | some limit =>
      dsimp only
      split
      · exact List.drop_sublist _ _
      · exact (List.take_sublist _ _).trans (List.drop_sublist _ _)

theorem cut_length_le {limit : Int} (nonneg : 0 ≤ limit) (offset : Option Int) (items : List α) :
    ((cut (some limit) offset items).length : Int) ≤ limit := by
  have taken := List.length_take_le limit.toNat (items.drop (offset.getD 0).toNat)
  unfold cut
  dsimp only
  rw [if_neg (Int.not_lt.mpr nonneg)]
  omega

theorem cut_map (limit offset : Option Int) (items : List α) (f : α → β) :
    cut limit offset (items.map f) = (cut limit offset items).map f := by
  unfold cut
  cases limit with
  | none => rw [List.map_drop]
  | some limit =>
      dsimp only
      split
      · rw [List.map_drop]
      · rw [List.map_take, List.map_drop]

theorem filter_mem_of_sublist [DecidableEq α] {part items : List α} (within : part.Sublist items)
    (distinct : items.Nodup) : (items.filter fun item => item ∈ part) = part := by
  induction within with
  | slnil => rfl
  | @cons part items item within induction =>
      obtain ⟨apart, distinctRest⟩ := List.nodup_cons.mp distinct
      have outside : item ∉ part := fun member => apart (within.subset member)
      rw [List.filter_cons, if_neg (by simpa using outside), induction distinctRest]
  | @cons_cons part items item within induction =>
      obtain ⟨apart, distinctRest⟩ := List.nodup_cons.mp distinct
      rw [List.filter_cons, if_pos (by simp)]
      congr 1
      rw [← induction distinctRest]
      apply List.filter_congr
      intro other member
      have different : other ≠ item := by
        rintro rfl
        exact apart member
      simp [different, induction distinctRest]

theorem filter_keys_of_sublist {κ : Type} [BEq κ] [LawfulBEq κ] {keyOf : α → κ}
    {part items : List α} (within : part.Sublist items) (distinct : (items.map keyOf).Nodup) :
    (items.filter fun item => (part.map keyOf).contains (keyOf item)) = part := by
  classical
  refine Eq.trans ?_ (filter_mem_of_sublist within (List.Nodup.of_map keyOf distinct))
  apply List.filter_congr
  intro item member
  rw [Bool.eq_iff_iff, List.contains_iff_mem, decide_eq_true_iff]
  constructor
  · intro found
    obtain ⟨other, otherMember, same⟩ := List.mem_map.mp found
    rwa [← List.inj_on_of_nodup_map distinct (within.subset otherMember) member same]
  · exact fun found => List.mem_map.mpr ⟨item, found, rfl⟩

/-- Where every block is a single item, a page of the items is made of the blocks of a page. -/
theorem cut_flat_map {block : α → List β} {items : List α} (limit offset : Option Int)
    (single : ∀ item ∈ items, ∃ part, block item = [part]) :
    cut limit offset (items.flatMap block) = (cut limit offset items).flatMap block := by
  cases items with
  | nil =>
      unfold cut
      cases limit <;> simp
  | cons first others =>
      obtain ⟨spare, _⟩ := single first List.mem_cons_self
      let only := fun item => ((block item).head?).getD spare
      have asMap (part : List α) (within : ∀ item ∈ part, item ∈ first :: others) :
          part.flatMap block = part.map only := by
        rw [List.map_eq_flatMap]
        apply List.flatMap_congr
        intro item member
        obtain ⟨found, shown⟩ := single item (within item member)
        simp only [only, shown, List.head?_cons, Option.getD_some]
      rw [asMap _ fun _ member => member, cut_map,
        asMap _ fun _ member => (cut_sublist limit offset (first :: others)).subset member]

end Pages

end QueryOptions.Sql
