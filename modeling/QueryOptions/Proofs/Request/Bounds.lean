import QueryOptions.Page

/-!
What the bounds of a page mean. Bounds that are read from options are never negative, and a page of
them is what is left after skipping, up to the limit if there is one.
-/

namespace QueryOptions.Page

/-- The items of a page; a limit of zero takes all that are left. -/
def slice {α : Type} (page : Page) (items : List α) : List α :=
  let rest := items.drop page.skip.toNat
  if page.limit = 0 then rest else rest.take page.limit.toNat

theorem slice_map {α β : Type} (page : Page) (items : List α) (f : α → β) :
    page.slice (items.map f) = (page.slice items).map f := by
  unfold slice
  dsimp only
  split
  · rw [List.map_drop]
  · rw [List.map_take, List.map_drop]

theorem slice_length_le {α : Type} {page : Page} (limited : 0 < page.limit) (items : List α) :
    ((page.slice items).length : Int) ≤ page.limit := by
  have taken := List.length_take_le page.limit.toNat (items.drop page.skip.toNat)
  unfold slice
  dsimp only
  rw [if_neg (Int.ne_of_gt limited)]
  omega

theorem slice_length {α : Type} {page : Page} (skipNonneg : 0 ≤ page.skip)
    (limitNonneg : 0 ≤ page.limit) (items : List α) :
    ((page.slice items).length : Int) =
      if page.limit = 0 then max 0 (items.length - page.skip)
      else min page.limit (max 0 (items.length - page.skip)) := by
  unfold slice
  dsimp only
  split
  · rw [List.length_drop]
    omega
  · rw [List.length_take, List.length_drop]
    omega

theorem slice_eq_nil_iff {α : Type} {page : Page} (skipNonneg : 0 ≤ page.skip)
    (limitNonneg : 0 ≤ page.limit) (items : List α) :
    page.slice items = [] ↔ items.length ≤ page.skip := by
  have length := slice_length skipNonneg limitNonneg items
  rw [← List.length_eq_zero_iff]
  split at length <;> omega

theorem slice_continues {α : Type} (items : List α) {skip limit position : Int}
    (skipNonneg : 0 ≤ skip) (limited : 0 < limit) (starts : skip ≤ position)
    (ends : position ≤ skip + limit) :
    (slice ⟨skip, limit⟩ items).take (position - skip).toNat ++ slice ⟨position, limit⟩ items =
      slice ⟨skip, position - skip + limit⟩ items := by
  have unbounded : limit ≠ 0 := Int.ne_of_gt limited
  have longer : position - skip + limit ≠ 0 := by omega
  have within : min (position - skip).toNat limit.toNat = (position - skip).toNat := by omega
  have start : position.toNat = skip.toNat + (position - skip).toNat := by omega
  have size : (position - skip + limit).toNat = (position - skip).toNat + limit.toNat := by omega
  unfold slice
  dsimp only
  rw [if_neg unbounded, if_neg unbounded, if_neg longer, List.take_take, within, start, size,
    ← List.drop_drop, ← List.take_add]

theorem bound_nonneg (value : Value) : 0 ≤ bound value := by
  unfold bound
  split
  · exact Int.le_refl 0
  · exact Int.le_refl 0
  · exact Int.le_max_left 0 _

theorem of_settings_nonneg (options : List (String × Value)) (settings : Settings) :
    0 ≤ (ofSettings options settings).skip ∧ 0 ≤ (ofSettings options settings).limit := by
  refine ⟨bound_nonneg _, ?_⟩
  change 0 ≤ clamp settings.maxTop (bound _)
  unfold clamp
  split
  · exact bound_nonneg _
  · split
    · rename_i ceiling bounded
      exact Int.le_of_lt bounded.1
    · exact bound_nonneg _

theorem limit_within_ceiling (options : List (String × Value)) {settings : Settings}
    {ceiling : Int} (capped : settings.maxTop = some ceiling) (positive : 0 < ceiling) :
    1 ≤ (ofSettings options settings).limit ∧ (ofSettings options settings).limit ≤ ceiling := by
  have nonneg := bound_nonneg (optionValue options settings.topKey)
  change 1 ≤ clamp settings.maxTop (bound _) ∧ clamp settings.maxTop (bound _) ≤ ceiling
  rw [capped]
  unfold clamp
  dsimp only
  split <;> omega

theorem of_settings_without_bounds (options : List (String × Value)) {settings : Settings}
    (unlimited : settings.maxTop = none)
    (without : ∀ key ∈ [settings.topKey, settings.skipKey], optionValue options key = .null) :
    ofSettings options settings = ⟨0, 0⟩ := by
  unfold ofSettings read
  rw [unlimited, without settings.topKey (by simp), without settings.skipKey (by simp)]
  rfl

end QueryOptions.Page
