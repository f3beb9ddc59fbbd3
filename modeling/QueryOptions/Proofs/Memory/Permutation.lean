import QueryOptions.Memory.Collection
import QueryOptions.Proofs.Memory.Sorting
import QueryOptions.Proofs.Request.Reading

/-!
Sorting in memory keeps every row. Whatever a comparison says, and even where it contradicts itself,
a sort that comes to an end gives the rows that it was given.
-/

namespace QueryOptions.Memory

section Sorting

variable {α : Type} {less : Less α}

/-- Where an element is put: behind one that it was seen not to be below, and in front of one that
it was seen to be below. -/
theorem insert_sorted_place {element : α} {sorted longer : List α}
    (inserted : insertSorted less element sorted = .ok longer) :
    ∃ below above, sorted = below ++ above ∧ longer = below ++ element :: above ∧
      (∀ last ∈ below.getLast?, less element last = .ok false) ∧
      ∀ next ∈ above.head?, less element next = .ok true := by
  induction size : sorted.length using Nat.strongRecOn generalizing sorted longer with
  | ind length induction =>
      subst size
      have whole := List.take_append_drop (sorted.length / 2) sorted
      rw [insertSorted] at inserted
      split at inserted
      · rename_i nothing
        have short := congrArg List.length nothing
        rw [List.length_drop, List.length_nil] at short
        have empty : sorted = [] := List.eq_nil_of_length_eq_zero (by omega)
        cases inserted
        exact ⟨[], [], empty, rfl, by simp, by simp⟩
      · rename_i middle above rest
        obtain ⟨belowShorter, aboveShorter⟩ := half_of_rest rest
        obtain ⟨lower, compared, placed⟩ := parts_of_bind inserted
        generalize sorted.take (sorted.length / 2) = below at *
        rw [rest] at whole
        subst whole
        cases lower with
        | true =>
            obtain ⟨lowerPart, insertedBelow, joined⟩ := parts_of_bind placed
            cases joined
            obtain ⟨first, second, rfl, rfl, behind, before⟩ :=
              induction _ belowShorter insertedBelow rfl
            refine ⟨first, second ++ middle :: above, by simp, by simp, behind, ?_⟩
            cases second with
            | nil => simpa using compared
            | cons next second => simpa using before
        | false =>
            obtain ⟨upperPart, insertedAbove, joined⟩ := parts_of_bind placed
            cases joined
            obtain ⟨first, second, rfl, rfl, behind, before⟩ :=
              induction _ aboveShorter insertedAbove rfl
            refine ⟨below ++ middle :: first, second, by simp, by simp, ?_, before⟩
            rcases List.eq_nil_or_concat first with rfl | ⟨others, last, rfl⟩
            · simpa using compared
            · simpa [List.getLast?_append, List.getLast?_cons] using behind

theorem insert_sorted_perm {element : α} {sorted longer : List α}
    (inserted : insertSorted less element sorted = .ok longer) :
    longer.Perm (element :: sorted) := by
  obtain ⟨below, above, rfl, rfl, _⟩ := insert_sorted_place inserted
  exact List.perm_middle

theorem insert_all_perm {elements sorted longer : List α}
    (inserted : elements.foldlM (fun sorted element => insertSorted less element sorted) sorted =
      .ok longer) : longer.Perm (sorted ++ elements) := by
  induction elements generalizing sorted with
  | nil =>
      cases inserted
      rw [List.append_nil]
  | cons element elements induction =>
      rw [List.foldlM_cons] at inserted
      obtain ⟨part, first, rest⟩ := parts_of_bind inserted
      have behind : (part ++ elements).Perm (element :: sorted ++ elements) :=
        (insert_sorted_perm first).append_right elements
      exact ((induction rest).trans behind).trans List.perm_middle.symm

theorem take_run_keeps {falling : Bool} {taken : List α} {last : α} {rest run remaining : List α}
    (took : takeRun less falling taken last rest = .ok (run, remaining)) :
    run.reverse ++ remaining = (last :: taken).reverse ++ rest := by
  induction rest generalizing taken last with
  | nil =>
      cases took
      rfl
  | cons next rest induction =>
      unfold takeRun at took
      obtain ⟨goesOn, _, decided⟩ := parts_of_bind took
      by_cases same : goesOn = falling
      · rw [if_pos same] at decided
        rw [induction decided, List.reverse_cons, List.append_assoc]
        rfl
      · rw [if_neg same] at decided
        cases decided
        rfl

theorem sort_by_perm {items sorted : List α} (ended : sortBy less items = .ok sorted) :
    sorted.Perm items := by
  match items, ended with
  | [], ended =>
      cases ended
      exact List.Perm.refl _
  | [only], ended =>
      cases ended
      exact List.Perm.refl _
  | first :: second :: rest, ended =>
      unfold sortBy at ended
      obtain ⟨falling, _, ran⟩ := parts_of_bind ended
      obtain ⟨⟨run, remaining⟩, took, inserted⟩ := parts_of_bind ran
      have turned : (if falling then run else run.reverse).Perm run.reverse := by
        cases falling with
        | true => exact run.reverse_perm.symm
        | false => exact List.Perm.refl _
      have whole : run.reverse ++ remaining = first :: second :: rest := take_run_keeps took
      rw [← whole]
      exact (insert_all_perm inserted).trans (turned.append_right remaining)

theorem sort_directed_perm {direction : Direction} {items sorted : List α}
    (ended : sortDirected less direction items = .ok sorted) : sorted.Perm items := by
  cases direction with
  | ascending => exact sort_by_perm ended
  | descending =>
      obtain ⟨turned, first, back⟩ := parts_of_bind ended
      cases back
      exact (turned.reverse_perm.trans (sort_by_perm first)).trans items.reverse_perm

end Sorting

theorem sort_rows_perm {key : Value → Value} {direction : Direction} {rows sorted : List Value}
    (ended : sortRows key direction rows = .ok sorted) : sorted.Perm rows := by
  unfold sortRows at ended
  split at ended
  · rename_i found
    cases ended
    exact sort_directed_perm found
  · exact sort_directed_perm ended

theorem Collection.ordered_perm [Attributes] {collection : Collection} {rows : List Value}
    (ended : collection.ordered = .ok rows) : rows.Perm collection.matching := by
  unfold ordered at ended
  generalize collection.matching = matching at ended ⊢
  generalize collection.orderings.reverse = passes at ended
  induction passes generalizing matching with
  | nil =>
      cases ended
      exact List.Perm.refl _
  | cons ordering passes induction =>
      rw [List.foldlM_cons] at ended
      obtain ⟨part, first, rest⟩ := parts_of_bind ended
      exact (induction part rest).trans (sort_rows_perm first)

end QueryOptions.Memory
