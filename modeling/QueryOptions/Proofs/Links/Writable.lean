import QueryOptions.Proofs.Links.Decoded

/-!
When a query string can be written. Its texts always can, so all that may be in the way are integers
with too many digits: bounds, or integers inside values that are no texts.
-/

namespace QueryOptions

namespace Value

theorem integer_is_writable_iff {number : Int} (nonneg : 0 ≤ number) :
    (Value.integer number).isWritable = true ↔ number < (10 ^ IntegerTooLong.limit : Nat) := by
  obtain ⟨number, rfl⟩ := Int.eq_ofNat_of_zero_le nonneg
  rw [isWritable, Int.natAbs_natCast, decide_eq_true_eq, Int.ofNat_lt, Nat.pow_eq]

theorem writable_of_not_truthy {value : Value} (none : ¬value.isTruthy = true) :
    value.isWritable = true := by
  cases value with
  | integer number =>
      have zero : number = 0 := by simpa [isTruthy] using none
      rw [zero, integer_is_writable_iff (Int.le_refl 0)]
      exact IntegerTooLong.bound_positive
  | list items =>
      have empty : items = [] := by simpa [isTruthy] using none
      rw [empty]
      rfl
  | record entries =>
      have empty : entries = [] := by simpa [isTruthy] using none
      rw [empty]
      rfl
  | _ => rfl

end Value

theorem Settings.forall_keys_iff (settings : Settings) (holds : String → Prop) :
    (∀ key ∈ settings.keys, holds key) ↔
      (∀ key ∈ settings.termKeys, holds key) ∧ holds settings.topKey ∧ holds settings.skipKey := by
  rw [keys, boundKeys, List.forall_mem_append, List.forall_mem_cons, List.forall_mem_singleton]

namespace QueryString

theorem mem_assign_given {pairs : List (String × Value)} {name : String} {value : Value}
    {pair : String × Value} (member : pair ∈ assignGiven pairs name value) :
    pair ∈ pairs ∨ pair.2 = value := by
  unfold assignGiven assign at member
  split at member
  · split at member
    · obtain ⟨earlier, known, rfl⟩ := List.mem_map.mp member
      split
      · exact .inr rfl
      · exact .inl known
    · rcases List.mem_append.mp member with known | new
      · exact .inl known
      · exact .inr (congrArg Prod.snd (List.mem_singleton.mp new))
  · exact .inl member

section Bounds

-- A query string is made with the bounds that are given, or else with those of the options, which
-- are never negative and never too long.
variable {bound : Option Int}

theorem bound_or_own_nonneg (given : ∀ number, bound = some number → 0 ≤ number) (own : Value) :
    0 ≤ bound.getD (Page.bound own) := by
  cases bound with
  | none => exact Page.bound_nonneg own
  | some number => exact given number rfl

theorem bound_or_own_fits_iff (own : Value) :
    bound.getD (Page.bound own) < (10 ^ IntegerTooLong.limit : Nat) ↔
      ∀ number, bound = some number → number < (10 ^ IntegerTooLong.limit : Nat) := by
  cases bound with
  | none => exact ⟨fun _ _ impossible => (nomatch impossible), fun _ => Page.bound_small own⟩
  | some number => exact ⟨fun fits _ same => Option.some.inj same ▸ fits, fun fits => fits _ rfl⟩

end Bounds

section Build

variable {settings : Settings} {options : List (String × Value)} {skip top : Option Int}

theorem mem_parameters {pair : String × Value}
    (member : pair ∈ parameters settings options skip top) :
    (∃ key ∈ settings.termKeys, pair.2 = Page.optionValue options key) ∨
      pair.2 = .integer (top.getD (Page.bound (Page.optionValue options settings.topKey))) ∨
      pair.2 = .integer (skip.getD (Page.bound (Page.optionValue options settings.skipKey))) := by
  rcases mem_assign_given member with earlier | skipped
  · rcases mem_assign_given earlier with term | topped
    · rcases mem_assign_given term with term | expanded
      · rcases mem_assign_given term with term | ordered
        · rcases mem_assign_given term with nothing | filtered
          · cases nothing
          · exact .inl ⟨_, settings.filter_is_term, filtered⟩
        · exact .inl ⟨_, settings.orderby_is_term, ordered⟩
      · exact .inl ⟨_, settings.expand_is_term, expanded⟩
    · exact .inr (.inl topped)
  · exact .inr (.inr skipped)

theorem build_eq_ok_iff {text : String} :
    build settings options skip top = .ok text ↔
      (∀ pair ∈ parameters settings options skip top, pair.2.isWritable = true) ∧
        text = written settings options skip top := by
  unfold build
  rw [← List.all_eq_true]
  split
  · rename_i writable
    rw [Except.ok.injEq, eq_comm]
    exact (and_iff_right writable).symm
  · rename_i unwritable
    exact ⟨fun impossible => (nomatch impossible), fun both => absurd both.1 unwritable⟩

/-- The terms of options that are no texts may hold integers as well. -/
def TermsAreWritable (settings : Settings) (options : List (String × Value)) : Prop :=
  ∀ key ∈ settings.termKeys, (Page.optionValue options key).isWritable = true

theorem terms_writable_of_texts (settings : Settings) (texts : AreTexts options) :
    TermsAreWritable settings options := by
  intro key _
  rcases option_of_texts texts key with missing | ⟨text, held⟩
  · rw [missing]
    rfl
  · rw [held]
    rfl

theorem build_of_writable (terms : TermsAreWritable settings options)
    (skipNonneg : ∀ bound, skip = some bound → 0 ≤ bound)
    (topNonneg : ∀ bound, top = some bound → 0 ≤ bound)
    (topFits : ∀ bound, top = some bound → bound < (10 ^ IntegerTooLong.limit : Nat))
    (skipFits : ∀ bound, skip = some bound → bound < (10 ^ IntegerTooLong.limit : Nat)) :
    build settings options skip top = .ok (written settings options skip top) := by
  refine build_eq_ok_iff.mpr ⟨fun pair member => ?_, rfl⟩
  rcases mem_parameters member with ⟨key, term, same⟩ | same | same
  · rw [same]
    exact terms key term
  · rw [same, Value.integer_is_writable_iff (bound_or_own_nonneg topNonneg _)]
    exact (bound_or_own_fits_iff _).mpr topFits
  · rw [same, Value.integer_is_writable_iff (bound_or_own_nonneg skipNonneg _)]
    exact (bound_or_own_fits_iff _).mpr skipFits

end Build

theorem given_under_writable_iff (value : String → Value) (keys : List String) :
    (∀ pair ∈ givenUnder value id keys, pair.2.isWritable = true) ↔
      ∀ key ∈ keys, (value key).isWritable = true := by
  unfold givenUnder
  constructor
  · intro pairs key known
    by_cases given : (value key).isTruthy = true
    · exact pairs _ (List.mem_filterMap.mpr ⟨key, known, if_pos given⟩)
    · exact Value.writable_of_not_truthy given
  · intro values pair member
    obtain ⟨key, known, same⟩ := List.mem_filterMap.mp member
    cases (Option.ite_none_right_eq_some.mp same).2
    exact values key known

/-- Under keys of their own the terms and both bounds stand side by side, and one of them is enough
for the query string not to be written. -/
theorem build_writes_iff {settings : Settings} (distinct : settings.keys.Nodup)
    (options : List (String × Value)) {skip top : Option Int}
    (skipNonneg : ∀ bound, skip = some bound → 0 ≤ bound)
    (topNonneg : ∀ bound, top = some bound → 0 ≤ bound) :
    (∃ text, build settings options skip top = .ok text) ↔
      TermsAreWritable settings options ∧
        (∀ bound, top = some bound → bound < (10 ^ IntegerTooLong.limit : Nat)) ∧
        (∀ bound, skip = some bound → bound < (10 ^ IntegerTooLong.limit : Nat)) := by
  simp only [build_eq_ok_iff, exists_and_left, exists_eq, and_true]
  rw [parameters_of_shown options distinct, given_under_writable_iff, Settings.forall_keys_iff,
    shown_top, shown_skip options distinct,
    Value.integer_is_writable_iff (bound_or_own_nonneg topNonneg _),
    Value.integer_is_writable_iff (bound_or_own_nonneg skipNonneg _), bound_or_own_fits_iff,
    bound_or_own_fits_iff]
  refine and_congr_left' (forall₂_congr fun key term => ?_)
  rw [shown_term options distinct _ _ term]

end QueryString

end QueryOptions
