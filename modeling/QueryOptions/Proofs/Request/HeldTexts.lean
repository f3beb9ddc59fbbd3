import QueryOptions.Proofs.Request.Reading

/-!
What a request reads of its options. Filter, order and expansion are read from texts, so options
that hold the same texts under the three keys read the same.
-/

namespace QueryOptions

/-- The text that a value holds, empty for anything but a text. -/
def Value.heldText : Value → String
  | .text held => held
  | _ => ""

theorem Value.parts_of_held_text {α : Type} (split : String → List α) (value : Value) :
    value.parts split = if value.heldText.isEmpty then [] else split value.heldText := by
  cases value with
  | text text => rfl
  | _ => rfl

def AreTexts (options : List (String × Value)) : Prop :=
  ∀ option ∈ options, ∃ text, option.2 = .text text

theorem option_of_texts {options : List (String × Value)} (texts : AreTexts options)
    (key : String) :
    Page.optionValue options key = .null ∨ ∃ text, Page.optionValue options key = .text text := by
  unfold Page.optionValue Value.lookup
  cases found : options.find? fun option => option.1 = key with
  | none => exact .inl rfl
  | some option => exact .inr (texts option (List.mem_of_find?_eq_some found))

def Settings.termKeys (settings : Settings) : List String :=
  [settings.filterKey, settings.orderbyKey, settings.expandKey]

section Reads

variable {left right : Value} (held : left.heldText = right.heldText)

include held

theorem Value.parts_same_held {α : Type} (split : String → List α) :
    left.parts split = right.parts split := by
  rw [parts_of_held_text, parts_of_held_text, held]

theorem Filter.read_same_held (grammar : Grammar) (strictness : Strictness) :
    read grammar strictness left = read grammar strictness right := by
  rw [read_eq_read_fragments, read_eq_read_fragments, Value.parts_same_held held]

theorem SortKey.read_same_held (access : Access) (strictness : Strictness) :
    read access strictness left = read access strictness right := by
  rw [read_eq_read_entries, read_eq_read_entries, Value.parts_same_held held]

theorem Expansion.read_same_held (access : Access) (strictness : Strictness) :
    read access strictness left = read access strictness right := by
  rw [read_eq_read_entries, read_eq_read_entries, Value.parts_same_held held]

end Reads

namespace Settings

variable (settings : Settings)

theorem filter_is_term : settings.filterKey ∈ settings.termKeys := by simp [termKeys]

theorem orderby_is_term : settings.orderbyKey ∈ settings.termKeys := by simp [termKeys]

theorem expand_is_term : settings.expandKey ∈ settings.termKeys := by simp [termKeys]

end Settings

namespace Request

theorem reads_of_held_texts (left right : Request) (access : left.access = right.access)
    (settings : left.settings = right.settings)
    (held : ∀ key ∈ left.settings.termKeys,
      (left.option key).heldText = (right.option key).heldText) :
    left.readPredicates = right.readPredicates ∧ left.readSorts = right.readSorts ∧
      left.readExpansions = right.readExpansions := by
  refine ⟨?_, ?_, ?_⟩
  · unfold readPredicates scope
    rw [Filter.read_same_held (held _ left.settings.filter_is_term), access, settings]
  · unfold readSorts
    rw [SortKey.read_same_held (held _ left.settings.orderby_is_term), access, settings]
  · unfold readExpansions
    rw [Expansion.read_same_held (held _ left.settings.expand_is_term), access, settings]

end Request

end QueryOptions
