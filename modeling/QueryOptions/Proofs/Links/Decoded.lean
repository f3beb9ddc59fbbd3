import Mathlib.Data.List.Basic
import QueryOptions.Proofs.Links.FormDecoding
import QueryOptions.Proofs.Request.HeldTexts
import QueryOptions.Proofs.Request.WrittenBounds

/-!
Options that come back from a query string. They hold the filter, the order and the expansion as
they were given, and the bounds that were asked for; so they read like the options they were made
from, and links made from either are the same.
-/

namespace QueryOptions

namespace Settings

def boundKeys (settings : Settings) : List String := [settings.topKey, settings.skipKey]

def keys (settings : Settings) : List String := settings.termKeys ++ settings.boundKeys

theorem top_is_bound (settings : Settings) : settings.topKey ∈ settings.boundKeys := by
  simp [boundKeys]

theorem skip_is_bound (settings : Settings) : settings.skipKey ∈ settings.boundKeys := by
  simp [boundKeys]

theorem top_known (settings : Settings) : settings.topKey ∈ settings.keys :=
  List.mem_append_right settings.termKeys settings.top_is_bound

theorem skip_known (settings : Settings) : settings.skipKey ∈ settings.keys :=
  List.mem_append_right settings.termKeys settings.skip_is_bound

theorem term_not_bound {settings : Settings} (distinct : settings.keys.Nodup) {key : String}
    (term : key ∈ settings.termKeys) : key ∉ settings.boundKeys :=
  fun bound => (List.nodup_append.mp distinct).2.2 key term key bound rfl

theorem skip_is_not_top {settings : Settings} (distinct : settings.keys.Nodup) :
    settings.skipKey ≠ settings.topKey := by
  have apart := (List.nodup_append.mp distinct).2.1
  simp only [boundKeys, List.nodup_cons, List.mem_singleton] at apart
  exact Ne.symm apart.1

end Settings

namespace QueryString

section Given

variable {α : Type} (value : String → Value)

/-- The values of some keys that count as given, each under its key. -/
def givenUnder (form : Value → α) (keys : List String) : List (String × α) :=
  keys.filterMap fun key => if (value key).isTruthy then some (key, form (value key)) else none

theorem given_under_map {β : Type} (form : Value → α) (f : α → β) (keys : List String) :
    (givenUnder value form keys).map (fun pair => (pair.1, f pair.2)) =
      givenUnder value (fun given => f (form given)) keys := by
  unfold givenUnder
  rw [List.map_filterMap]
  congr 1
  funext key
  split <;> rfl

theorem lookup_given_under (form : Value → Value) (keys : List String) (key : String) :
    Value.lookup key (givenUnder value form keys) =
      if key ∈ keys ∧ (value key).isTruthy = true then some (form (value key)) else none := by
  induction keys with
  | nil => simp [givenUnder, Value.lookup]
  | cons other keys induction =>
      unfold givenUnder at induction ⊢
      rw [List.filterMap_cons]
      by_cases same : other = key
      · subst same
        by_cases given : (value other).isTruthy = true
        · simp [given, Value.lookup]
        · simpa [given] using induction
      · have sameKeys : key ∈ other :: keys ↔ key ∈ keys := by
          rw [List.mem_cons]
          exact or_iff_right fun equal => same equal.symm
        simp only [sameKeys]
        rw [← induction]
        by_cases given : (value other).isTruthy = true
        · simp [given, Value.lookup, same]
        · simp [given]

theorem assign_given_fresh {pairs : List (String × Value)} {name : String}
    (fresh : ∀ pair ∈ pairs, pair.1 ≠ name) (value : Value) :
    assignGiven pairs name value = pairs ++ if value.isTruthy then [(name, value)] else [] := by
  unfold assignGiven assign
  have absent : (pairs.any fun pair => decide (pair.1 = name)) = false := by
    simpa using fresh
  rw [absent, if_neg Bool.false_ne_true]
  split
  · rfl
  · rw [List.append_nil]

theorem assign_ne_nil (pairs : List (String × Value)) (name : String) (value : Value) :
    assign pairs name value ≠ [] := by
  unfold assign
  split
  · rename_i present
    obtain ⟨pair, member, _⟩ := List.any_eq_true.mp present
    exact List.ne_nil_of_mem (List.mem_map_of_mem member)
  · exact List.append_ne_nil_of_right_ne_nil _ (List.cons_ne_nil _ _)

theorem assign_given_ne_nil {pairs : List (String × Value)} (given : pairs ≠ []) (name : String)
    (value : Value) : assignGiven pairs name value ≠ [] := by
  unfold assignGiven
  split
  · exact assign_ne_nil pairs name value
  · exact given

theorem lookup_assign (pairs : List (String × Value)) (name : String) (value : Value) :
    Value.lookup name (assign pairs name value) = some value := by
  unfold assign Value.lookup
  by_cases present : (pairs.any fun pair => decide (pair.1 = name)) = true
  · rw [if_pos present]
    induction pairs with
    | nil => cases present
    | cons pair pairs induction =>
        rw [List.map_cons]
        by_cases same : pair.1 = name
        · rw [if_pos same, List.find?_cons_of_pos (by simp)]
          rfl
        · rw [if_neg same, List.find?_cons_of_neg (by simpa using same)]
          exact induction (by simpa [same] using present)
  · have absent : pairs.find? (fun pair => decide (pair.1 = name)) = none := by
      rw [List.find?_eq_none]
      exact fun pair member same => present (List.any_eq_true.mpr ⟨pair, member, same⟩)
    rw [if_neg present, List.find?_append, absent, Option.none_or,
      List.find?_cons_of_pos (by simp)]
    rfl

theorem lookup_map (form : Value → Value) (pairs : List (String × Value)) (name : String) :
    Value.lookup name (pairs.map fun pair => (pair.1, form pair.2)) =
      (Value.lookup name pairs).map form := by
  unfold Value.lookup
  rw [List.find?_map, Option.map_map, Option.map_map]
  rfl

theorem assign_all {keys : List String} (distinct : keys.Nodup) {pairs : List (String × Value)}
    (fresh : ∀ pair ∈ pairs, pair.1 ∉ keys) :
    keys.foldl (fun pairs key => assignGiven pairs key (value key)) pairs =
      pairs ++ givenUnder value id keys := by
  induction keys generalizing pairs with
  | nil => rw [List.foldl_nil, givenUnder, List.filterMap_nil, List.append_nil]
  | cons key keys induction =>
      obtain ⟨notLater, distinctRest⟩ := List.nodup_cons.mp distinct
      have freshHere : ∀ pair ∈ pairs, pair.1 ≠ key := by
        intro pair member same
        exact fresh pair member (same ▸ List.mem_cons_self)
      rw [List.foldl_cons, assign_given_fresh freshHere, induction distinctRest]
      · unfold givenUnder
        rw [List.filterMap_cons, List.append_assoc]
        split <;> simp_all
      · intro pair member
        rcases List.mem_append.mp member with earlier | new
        · exact fun later => fresh pair earlier (List.mem_cons_of_mem key later)
        · split at new
          · rw [List.mem_singleton.mp new]
            exact notLater
          · cases new

end Given

/-- A bound as it comes back: nothing is left of one that has too many digits. -/
def broughtBack (bound : Int) : Int :=
  if bound < (10 ^ IntegerTooLong.limit : Nat) then bound else 0

theorem bound_brought_back {bound : Int} (nonneg : 0 ≤ bound) :
    Page.bound (if (Value.integer bound).isTruthy then .text (Value.integer bound).plainText
      else .null) = broughtBack bound := by
  obtain ⟨number, rfl⟩ := Int.eq_ofNat_of_zero_le nonneg
  have written : Page.bound (.text (Value.integer (number : Int)).plainText) =
      broughtBack number := by
    unfold broughtBack
    simp only [Int.ofNat_lt]
    exact Page.bound_written number
  by_cases given : (Value.integer (number : Int)).isTruthy = true
  · rw [if_pos given, written]
  · have zero : number = 0 := by simpa [Value.isTruthy] using given
    rw [if_neg given, zero]
    exact (ite_self (0 : Int)).symm

/-- What a query string says under a key: a bound, or the value of the option. -/
def shown (settings : Settings) (options : List (String × Value)) (skip top : Int) (key : String) :
    Value :=
  if key = settings.topKey then .integer top
  else if key = settings.skipKey then .integer skip
  else Page.optionValue options key

/-- The options that a query string with some bounds gives back. -/
def decoded (settings : Settings) (options : List (String × Value)) (skip top : Int) :
    List (String × Value) :=
  givenUnder (shown settings options skip top) (fun value => .text value.plainText) settings.keys

theorem decoded_are_texts (settings : Settings) (options : List (String × Value))
    (skip top : Int) : AreTexts (decoded settings options skip top) := by
  intro option member
  obtain ⟨key, _, same⟩ := List.mem_filterMap.mp member
  cases (Option.ite_none_right_eq_some.mp same).2
  exact ⟨_, rfl⟩

def optionsOf (query : String) : Option (List (String × Value)) :=
  (decodePairs query).map fun pairs => pairs.map fun pair => (pair.1, .text pair.2)

section Built

variable (settings : Settings) (options : List (String × Value)) (skip : Option Int)

theorem options_of_parameters (top : Option Int) :
    optionsOf (written settings options skip top) =
      some ((parameters settings options skip top).map fun pair =>
        (pair.1, .text pair.2.plainText)) := by
  unfold optionsOf written
  rw [decode_encode_pairs, Option.map_some, List.map_map]
  rfl

theorem written_nonempty {top : Int} (positive : 0 < top) :
    written settings options skip (some top) ≠ "" := by
  intro empty
  have counts : (Value.integer top).isTruthy = true := by
    simp only [Value.isTruthy, ne_eq, decide_eq_true_eq]
    omega
  have nothing : parameters settings options skip (some top) = [] := by
    have back := options_of_parameters settings options skip (some top)
    rw [empty] at back
    exact List.map_eq_nil_iff.mp (Option.some.inj back).symm
  refine assign_given_ne_nil ?_ _ _ nothing
  unfold assignGiven
  rw [Option.getD_some, if_pos counts]
  exact assign_ne_nil _ _ _

/-- A skip that is given comes back, even under a key that is used twice. -/
theorem skip_comes_back {bound : Int} (positive : 0 < bound) (top : Option Int) :
    ∃ back, optionsOf (written settings options (some bound) top) = some back ∧
      Page.optionValue back settings.skipKey = .text (toString bound) := by
  have counts : (Value.integer bound).isTruthy = true := by
    simp only [Value.isTruthy, ne_eq, decide_eq_true_eq]
    omega
  refine ⟨_, options_of_parameters settings options (some bound) top, ?_⟩
  unfold Page.optionValue
  rw [lookup_map fun value => .text value.plainText]
  unfold parameters assignGiven
  dsimp only
  rw [Option.getD_some, if_pos counts, lookup_assign]
  rfl

end Built

section Decoded

variable {settings : Settings} (options : List (String × Value))

theorem shown_top (skip top : Int) :
    shown settings options skip top settings.topKey = .integer top :=
  if_pos rfl

theorem decoded_option (skip top : Int) {key : String} (known : key ∈ settings.keys) :
    Page.optionValue (decoded settings options skip top) key =
      if (shown settings options skip top key).isTruthy then
        .text (shown settings options skip top key).plainText
      else .null := by
  unfold Page.optionValue decoded
  rw [lookup_given_under]
  by_cases given : (shown settings options skip top key).isTruthy = true
  · rw [if_pos ⟨known, given⟩, if_pos given]
    rfl
  · rw [if_neg fun both => given both.2, if_neg given]
    rfl

variable (distinct : settings.keys.Nodup)

include distinct

theorem shown_skip (skip top : Int) :
    shown settings options skip top settings.skipKey = .integer skip := by
  rw [shown, if_neg (settings.skip_is_not_top distinct), if_pos rfl]

theorem shown_term (skip top : Int) {key : String} (term : key ∈ settings.termKeys) :
    shown settings options skip top key = Page.optionValue options key := by
  have other := settings.term_not_bound distinct term
  simp only [Settings.boundKeys, List.mem_cons, List.not_mem_nil, or_false, not_or] at other
  rw [shown, if_neg other.1, if_neg other.2]

theorem parameters_of_shown (skip top : Option Int) :
    parameters settings options skip top =
      givenUnder (shown settings options
        (skip.getD (Page.bound (Page.optionValue options settings.skipKey)))
        (top.getD (Page.bound (Page.optionValue options settings.topKey)))) id settings.keys := by
  have term (key : String) (given : key ∈ settings.termKeys) (skip top : Int) :=
    shown_term options distinct skip top given
  rw [← List.nil_append (givenUnder _ _ _), ← assign_all _ distinct (by simp), Settings.keys,
    List.foldl_append]
  simp only [Settings.termKeys, List.mem_cons, List.not_mem_nil, or_false, forall_eq_or_imp,
    forall_eq] at term
  simp only [Settings.termKeys, Settings.boundKeys, List.foldl_cons, List.foldl_nil, term,
    shown_top, shown_skip options distinct]
  rfl

theorem options_of_written (skip top : Option Int) :
    optionsOf (written settings options skip top) =
      some (decoded settings options
        (skip.getD (Page.bound (Page.optionValue options settings.skipKey)))
        (top.getD (Page.bound (Page.optionValue options settings.topKey)))) := by
  rw [options_of_parameters, parameters_of_shown options distinct]
  exact congrArg some (given_under_map _ id (fun value => Value.text value.plainText) settings.keys)

theorem page_of_decoded {skip top : Int} (skipNonneg : 0 ≤ skip) (topNonneg : 0 ≤ top) :
    Page.ofSettings (decoded settings options skip top) settings =
      ⟨broughtBack skip, Page.clamp settings.maxTop (broughtBack top)⟩ := by
  unfold Page.ofSettings Page.read
  rw [decoded_option options skip top settings.skip_known,
    decoded_option options skip top settings.top_known, shown_top, shown_skip options distinct,
    bound_brought_back skipNonneg, bound_brought_back topNonneg]

theorem decoded_held_text (skip top : Int) {key : String} (term : key ∈ settings.termKeys)
    (textual : (Page.optionValue options key).isTruthy = true →
      ∃ text, Page.optionValue options key = .text text) :
    (Page.optionValue (decoded settings options skip top) key).heldText =
      (Page.optionValue options key).heldText := by
  rw [decoded_option options skip top (List.mem_append_left settings.boundKeys term),
    shown_term options distinct skip top term]
  split
  · rename_i given
    obtain ⟨text, held⟩ := textual given
    rw [held]
    rfl
  · rename_i notGiven
    cases held : Page.optionValue options key with
    | text text =>
        rw [held] at notGiven
        have empty : text = "" := by simpa [Value.isTruthy] using notGiven
        rw [empty]
        rfl
    | _ => rfl

section Texts

variable {options} (texts : AreTexts options)

include texts

/-- A text that is not empty comes back as it is, and all else as nothing. -/
theorem decoded_term (skip top : Int) {key : String} (term : key ∈ settings.termKeys) :
    Page.optionValue (decoded settings options skip top) key =
      if (Page.optionValue options key).isTruthy then Page.optionValue options key else .null := by
  rw [decoded_option options skip top (List.mem_append_left settings.boundKeys term),
    shown_term options distinct skip top term]
  rcases option_of_texts texts key with missing | ⟨text, held⟩
  · rw [missing]
    rfl
  · rw [held]
    rfl

theorem decoded_holds (skip top : Int) {key : String} (term : key ∈ settings.termKeys) :
    (Page.optionValue (decoded settings options skip top) key).heldText =
      (Page.optionValue options key).heldText := by
  refine decoded_held_text options distinct skip top term fun given => ?_
  rcases option_of_texts texts key with missing | held
  · rw [missing] at given
    cases given
  · exact held

theorem decoded_again (earlierSkip earlierTop skip top : Int) :
    decoded settings (decoded settings options earlierSkip earlierTop) skip top =
      decoded settings options skip top := by
  change givenUnder _ _ _ = givenUnder _ _ _
  refine List.filterMap_congr fun key known => ?_
  rcases List.mem_append.mp known with term | bound
  · rw [shown_term _ distinct _ _ term, shown_term _ distinct _ _ term,
      decoded_term distinct texts _ _ term]
    rcases option_of_texts texts key with missing | ⟨text, held⟩
    · rw [missing]
      rfl
    · rw [held]
      by_cases nonempty : (Value.text text).isTruthy = true
      · rw [if_pos nonempty]
      · rw [if_neg nonempty, if_neg nonempty]
        rfl
  · simp only [Settings.boundKeys, List.mem_cons, List.not_mem_nil, or_false] at bound
    rcases bound with rfl | rfl
    · rw [shown_top, shown_top]
    · rw [shown_skip _ distinct, shown_skip _ distinct]

end Texts

end Decoded

end QueryString

end QueryOptions
