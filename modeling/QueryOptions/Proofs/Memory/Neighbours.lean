import Mathlib.Data.List.Chain
import QueryOptions.Proofs.Memory.Permutation

/-!
A sort compares its neighbours. Whatever a comparison says, two items that end up next to each other
in a sort have been compared, and the answer was that they stand in this order. So a comparison that
fails on a pair keeps this pair from being neighbours.
-/

namespace QueryOptions.Memory

variable {α : Type} {less : Less α}

/-- Two items in an order that was found by comparing them, one way or the other. -/
def Settled (less : Less α) (left right : α) : Prop :=
  less left right = .ok true ∨ less right left = .ok false

theorem insert_sorted_settled {element : α} {sorted longer : List α}
    (inserted : insertSorted less element sorted = .ok longer)
    (settled : sorted.IsChain (Settled less)) : longer.IsChain (Settled less) := by
  obtain ⟨below, above, rfl, rfl, behind, before⟩ := insert_sorted_place inserted
  obtain ⟨belowSettled, aboveSettled, _⟩ := List.isChain_append.mp settled
  have upper : (element :: above).IsChain (Settled less) :=
    List.isChain_cons.mpr ⟨fun next first => .inl (before next first), aboveSettled⟩
  refine List.isChain_append.mpr ⟨belowSettled, upper, ?_⟩
  intro last isLast first isFirst
  cases isFirst
  exact .inr (behind last isLast)

theorem insert_all_settled {elements sorted longer : List α}
    (inserted : elements.foldlM (fun sorted element => insertSorted less element sorted) sorted =
      .ok longer) (settled : sorted.IsChain (Settled less)) : longer.IsChain (Settled less) := by
  induction elements generalizing sorted with
  | nil =>
      cases inserted
      exact settled
  | cons element elements induction =>
      rw [List.foldlM_cons] at inserted
      obtain ⟨part, first, rest⟩ := parts_of_bind inserted
      exact induction rest (insert_sorted_settled first settled)

/-- In a run every item was compared with the one before it, which stands behind it here. -/
theorem take_run_compared {falling : Bool} {taken : List α} {last : α} {rest run remaining : List α}
    (took : takeRun less falling taken last rest = .ok (run, remaining))
    (compared : (last :: taken).IsChain fun newer older => less newer older = .ok falling) :
    run.IsChain fun newer older => less newer older = .ok falling := by
  induction rest generalizing taken last with
  | nil =>
      cases took
      exact compared
  | cons next rest induction =>
      unfold takeRun at took
      obtain ⟨goesOn, answer, decided⟩ := parts_of_bind took
      by_cases same : goesOn = falling
      · rw [if_pos same] at decided
        exact induction decided (List.isChain_cons_cons.mpr ⟨same ▸ answer, compared⟩)
      · rw [if_neg same] at decided
        cases decided
        exact compared

theorem run_settled {falling : Bool} {run : List α}
    (compared : run.IsChain fun newer older => less newer older = .ok falling) :
    (if falling then run else run.reverse).IsChain (Settled less) := by
  cases falling with
  | true => exact compared.imp fun _ _ => .inl
  | false => exact List.isChain_reverse.mpr (compared.imp fun _ _ => .inr)

theorem sort_by_settled {items sorted : List α} (ended : sortBy less items = .ok sorted) :
    sorted.IsChain (Settled less) := by
  match items, ended with
  | [], ended =>
      cases ended
      exact List.isChain_nil
  | [only], ended =>
      cases ended
      exact List.isChain_singleton only
  | first :: second :: rest, ended =>
      unfold sortBy at ended
      obtain ⟨falling, answer, ran⟩ := parts_of_bind ended
      obtain ⟨⟨run, remaining⟩, took, inserted⟩ := parts_of_bind ran
      have compared := take_run_compared took (List.isChain_pair.mpr answer)
      exact insert_all_settled inserted (run_settled compared)

theorem sort_directed_settled {direction : Direction} {items sorted : List α}
    (ended : sortDirected less direction items = .ok sorted) :
    ∃ turned : List α, turned.Perm items ∧ turned.IsChain (Settled less) := by
  cases direction with
  | ascending => exact ⟨sorted, sort_by_perm ended, sort_by_settled ended⟩
  | descending =>
      obtain ⟨turned, found, _⟩ := parts_of_bind ended
      exact ⟨turned, (sort_by_perm found).trans items.reverse_perm, sort_by_settled found⟩

end QueryOptions.Memory
