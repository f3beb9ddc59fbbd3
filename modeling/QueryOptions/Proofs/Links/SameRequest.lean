import QueryOptions.Proofs.Links.Writable

/-!
A query string is the request that it was made from. Decoded, it says what the filter, the order and
the expansion say, in this order, and then the bounds that are positive. Read again, it gives the
clauses, sorts, relations and pages of the original options, and written again it gives itself.
-/

namespace QueryOptions.QueryString

/-- The texts of the filter, the order and the expansion that are not empty, under their keys. -/
def terms (settings : Settings) (options : List (String × Value)) : List (String × String) :=
  settings.termKeys.filterMap fun key =>
    let text := (Page.optionValue options key).heldText
    if text.isEmpty then none else some (key, text)

def boundPair (key : String) (bound : Int) : List (String × String) :=
  if 0 < bound then [(key, toString bound)] else []

theorem brought_back_bound (value : Value) :
    broughtBack (Page.bound value) = Page.bound value :=
  if_pos (Page.bound_small value)

theorem given_bound (value : String → Value) {key : String} {bound : Int} (nonneg : 0 ≤ bound)
    (holds : value key = .integer bound) :
    givenUnder value Value.plainText [key] = boundPair key bound := by
  have positive : (Value.integer bound).isTruthy = true ↔ 0 < bound := by
    simp only [Value.isTruthy, decide_eq_true_eq]
    omega
  unfold givenUnder boundPair
  simp only [List.filterMap_cons, List.filterMap_nil, holds, positive]
  by_cases isPositive : 0 < bound
  · rw [if_pos isPositive, if_pos isPositive]
    rfl
  · rw [if_neg isPositive, if_neg isPositive]

section Pairs

variable {settings : Settings} {options : List (String × Value)}
  (distinct : settings.keys.Nodup) (texts : AreTexts options)

include distinct texts

theorem given_terms (skip top : Int) :
    givenUnder (shown settings options skip top) Value.plainText settings.termKeys =
      terms settings options := by
  refine List.filterMap_congr fun key term => ?_
  rw [shown_term options distinct skip top term]
  rcases option_of_texts texts key with missing | ⟨text, held⟩
  · rw [missing]
    rfl
  · rw [held]
    cases empty : text.isEmpty <;> simp [Value.isTruthy, Value.heldText, Value.plainText, empty]

theorem pairs_of_written {skip top : Option Int}
    (skipNonneg : ∀ bound, skip = some bound → 0 ≤ bound)
    (topNonneg : ∀ bound, top = some bound → 0 ≤ bound) :
    decodePairs (written settings options skip top) = some (terms settings options ++
      boundPair settings.topKey
        (top.getD (Page.bound (Page.optionValue options settings.topKey))) ++
      boundPair settings.skipKey
        (skip.getD (Page.bound (Page.optionValue options settings.skipKey)))) := by
  have parts (value : String → Value) : givenUnder value Value.plainText settings.keys =
      givenUnder value Value.plainText settings.termKeys ++
        givenUnder value Value.plainText [settings.topKey] ++
        givenUnder value Value.plainText [settings.skipKey] := by
    unfold givenUnder
    rw [← List.filterMap_append, ← List.filterMap_append, List.append_assoc]
    rfl
  unfold written
  rw [decode_encode_pairs, parameters_of_shown options distinct, given_under_map]
  simp only [id]
  rw [parts, given_terms distinct texts,
    given_bound _ (bound_or_own_nonneg topNonneg _) (shown_top options _ _),
    given_bound _ (bound_or_own_nonneg skipNonneg _) (shown_skip options distinct _ _)]

omit texts in
theorem bound_again {key : String} (known : key ∈ settings.boundKeys) :
    Page.bound (Page.optionValue (decoded settings options
        (Page.bound (Page.optionValue options settings.skipKey))
        (Page.bound (Page.optionValue options settings.topKey))) key) =
      Page.bound (Page.optionValue options key) := by
  rw [decoded_option options _ _ (List.mem_append_right settings.termKeys known)]
  simp only [Settings.boundKeys, List.mem_cons, List.not_mem_nil, or_false] at known
  rcases known with rfl | rfl
  · rw [shown_top, bound_brought_back (Page.bound_nonneg _), brought_back_bound]
  · rw [shown_skip options distinct, bound_brought_back (Page.bound_nonneg _), brought_back_bound]

omit texts in
theorem written_eq_encode_decoded (skip top : Option Int) :
    written settings options skip top = encodePairs ((decoded settings options
        (skip.getD (Page.bound (Page.optionValue options settings.skipKey)))
        (top.getD (Page.bound (Page.optionValue options settings.topKey)))).map fun pair =>
      (pair.1, pair.2.plainText)) := by
  unfold written decoded
  rw [parameters_of_shown options distinct, given_under_map, given_under_map]
  rfl

theorem written_again :
    written settings (decoded settings options
        (Page.bound (Page.optionValue options settings.skipKey))
        (Page.bound (Page.optionValue options settings.topKey))) none none =
      written settings options none none := by
  rw [written_eq_encode_decoded distinct, written_eq_encode_decoded distinct]
  simp only [Option.getD_none]
  rw [bound_again distinct settings.skip_is_bound, bound_again distinct settings.top_is_bound,
    decoded_again distinct texts]

omit distinct in
/-- The bounds of the options are always short enough. -/
theorem build_without_bounds :
    build settings options none none = .ok (written settings options none none) := by
  refine build_of_writable (terms_writable_of_texts settings texts) ?_ ?_ ?_ ?_ <;> rintro _ ⟨⟩

/-- A query string keeps the request. It decodes to the filter, the order and the expansion as they
were given and to the positive bounds, which are those of the options when none are given. Without
bounds of its own it decodes to options that read like the original ones, under whatever grammar,
access, strictness and ceiling, and of which the same query string is made. The bounds that are
given have to be short enough to be written; those of the options always are. -/
theorem query_string_keeps_request {skip top : Option Int}
    (skipNonneg : ∀ bound, skip = some bound → 0 ≤ bound)
    (topNonneg : ∀ bound, top = some bound → 0 ≤ bound) :
    ((∃ query, build settings options skip top = .ok query) ↔
      (∀ bound, top = some bound → bound < (10 ^ IntegerTooLong.limit : Nat)) ∧
        ∀ bound, skip = some bound → bound < (10 ^ IntegerTooLong.limit : Nat)) ∧
    (∀ query, build settings options skip top = .ok query →
      decodePairs query = some (terms settings options ++
        boundPair settings.topKey
          (top.getD (Page.bound (Page.optionValue options settings.topKey))) ++
        boundPair settings.skipKey
          (skip.getD (Page.bound (Page.optionValue options settings.skipKey))))) ∧
    ∃ query again, build settings options none none = .ok query ∧ optionsOf query = some again ∧
      (∀ grammar strictness,
        Filter.read grammar strictness (Page.optionValue again settings.filterKey) =
          Filter.read grammar strictness (Page.optionValue options settings.filterKey)) ∧
      (∀ access strictness,
        SortKey.read access strictness (Page.optionValue again settings.orderbyKey) =
          SortKey.read access strictness (Page.optionValue options settings.orderbyKey)) ∧
      (∀ access strictness,
        Expansion.read access strictness (Page.optionValue again settings.expandKey) =
          Expansion.read access strictness (Page.optionValue options settings.expandKey)) ∧
      (∀ ceiling, Page.read again settings.skipKey settings.topKey ceiling =
        Page.read options settings.skipKey settings.topKey ceiling) ∧
      build settings again none none = .ok query := by
  refine ⟨?_, ?_, _, _, build_without_bounds texts,
    options_of_written options distinct none none, ?_, ?_, ?_, ?_, ?_⟩
  · rw [build_writes_iff distinct options skipNonneg topNonneg]
    exact and_iff_right (terms_writable_of_texts settings texts)
  · intro query built
    rw [(build_eq_ok_iff.mp built).2]
    exact pairs_of_written distinct texts skipNonneg topNonneg
  · intro grammar strictness
    exact Filter.read_same_held
      (decoded_holds distinct texts _ _ settings.filter_is_term) grammar strictness
  · intro access strictness
    exact SortKey.read_same_held
      (decoded_holds distinct texts _ _ settings.orderby_is_term) access strictness
  · intro access strictness
    exact Expansion.read_same_held
      (decoded_holds distinct texts _ _ settings.expand_is_term) access strictness
  · intro ceiling
    unfold Page.read
    simp only [Option.getD_none]
    rw [bound_again distinct settings.skip_is_bound, bound_again distinct settings.top_is_bound]
  · simp only [Option.getD_none]
    rw [build_without_bounds (decoded_are_texts settings options _ _), written_again distinct texts]

end Pairs

/-- Every character of the encoding in one value, an empty order and bounds that need reading. -/
def reserved : List (String × Value) := [
  ("$top", .text " +1_0 "),
  ("$filter", .text "näme eq '&=+%26# $'"),
  ("$orderby", .text ""),
  ("$skip", .text "-3")]

theorem query_string_keeps_request_reserved :
    Settings.keys {} = ["$filter", "$orderby", "$expand", "$top", "$skip"] ∧ AreTexts reserved ∧
      (∃ query, build {} reserved (some 7) none = .ok query ∧
        decodePairs query =
          some [("$filter", "näme eq '&=+%26# $'"), ("$top", "10"), ("$skip", "7")]) ∧
      ∃ query again, build {} reserved none none = .ok query ∧ optionsOf query = some again ∧
        Filter.read .standard .strict (Page.optionValue again "$filter") =
          Filter.read .standard .strict (Page.optionValue reserved "$filter") ∧
        SortKey.read {} .strict (Page.optionValue again "$orderby") =
          SortKey.read {} .strict (Page.optionValue reserved "$orderby") ∧
        Expansion.read {} .strict (Page.optionValue again "$expand") =
          Expansion.read {} .strict (Page.optionValue reserved "$expand") ∧
        Page.read again "$skip" "$top" (some 5) = Page.read reserved "$skip" "$top" (some 5) ∧
        build {} again none none = .ok query := by
  have texts : AreTexts reserved := by
    intro option member
    simp only [reserved, List.mem_cons, List.not_mem_nil, or_false] at member
    rcases member with rfl | rfl | rfl | rfl <;> exact ⟨_, rfl⟩
  have skipNonneg : ∀ bound : Int, some 7 = some bound → 0 ≤ bound := by
    rintro _ ⟨⟩
    decide
  have topNonneg : ∀ bound : Int, none = some bound → 0 ≤ bound := by
    rintro _ ⟨⟩
  have topFits : ∀ bound : Int, none = some bound → bound < (10 ^ IntegerTooLong.limit : Nat) := by
    rintro _ ⟨⟩
  have skipFits : ∀ bound : Int, some 7 = some bound →
      bound < (10 ^ IntegerTooLong.limit : Nat) := by
    rintro _ ⟨⟩
    decide +kernel
  have distinct : (Settings.keys {}).Nodup := by decide
  obtain ⟨writes, pairs, query, again, built, back, filter, orderby, expand, page, rebuilt⟩ :=
    query_string_keeps_request distinct texts skipNonneg topNonneg
  obtain ⟨bounded, builtBounded⟩ := writes.mpr ⟨topFits, skipFits⟩
  have values : terms {} reserved = [("$filter", "näme eq '&=+%26# $'")] := by decide +kernel
  have top : Page.bound (Page.optionValue reserved "$top") = 10 := by decide +kernel
  refine ⟨rfl, texts, ⟨bounded, builtBounded, ?_⟩, query, again, built, back,
    filter .standard .strict, orderby {} .strict, expand {} .strict, page (some 5), rebuilt⟩
  rw [pairs bounded builtBounded, values]
  change some ([("$filter", _)] ++
    boundPair "$top" (Page.bound (Page.optionValue reserved "$top")) ++ boundPair "$skip" 7) = _
  rw [top]
  decide +kernel

/-- The link to the last of as many pages as each page has rows skips more rows than can be written,
and so there is no query string. -/
theorem overlong_skip_has_no_query_string :
    let size : Int := (10 ^ 3000 : Nat)
    let options := [("$filter", Value.text "age gt 18")]
    (Settings.keys {}).Nodup ∧ AreTexts options ∧ 0 ≤ (size - 1) * size ∧ 0 ≤ size ∧
      build {} options (some ((size - 1) * size)) (some size) = .error {} := by
  intro size options
  have distinct : (Settings.keys {}).Nodup := by decide
  have texts : AreTexts options := by
    intro option member
    obtain rfl := List.mem_singleton.mp member
    exact ⟨_, rfl⟩
  have skipNonneg : 0 ≤ (size - 1) * size := by decide +kernel
  have sizeNonneg : 0 ≤ size := by decide +kernel
  have overlong : ¬(size - 1) * size < (10 ^ IntegerTooLong.limit : Nat) := by decide +kernel
  refine ⟨distinct, texts, skipNonneg, sizeNonneg, ?_⟩
  cases built : build {} options (some ((size - 1) * size)) (some size) with
  | error failure => rfl
  | ok query =>
      have fits := (build_writes_iff distinct options
        (fun _ same => Option.some.inj same ▸ skipNonneg)
        (fun _ same => Option.some.inj same ▸ sizeNonneg)).mp ⟨query, built⟩
      exact absurd (fits.2.2 _ rfl) overlong

end QueryOptions.QueryString
