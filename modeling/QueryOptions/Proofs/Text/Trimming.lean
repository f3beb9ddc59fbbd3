import QueryOptions.Clause

/-!
Texts between blanks. A text that starts and ends with ink is left as it is by trimming, and three
such texts with a blank between them are the parts that a fragment is cut into.
-/

namespace QueryOptions

namespace Text

theorem ink_of_all {text : List Char} (all : (text.all fun c => !isBlank c) = true) :
    ∀ c ∈ text, isBlank c = false := by
  simpa using all

/-- A text that starts and ends with ink. -/
structure IsTrimmed (text : List Char) : Prop where
  starts : ∃ first rest, text = first :: rest ∧ isBlank first = false
  ends : ∃ before last, text = before ++ [last] ∧ isBlank last = false

theorem trim_left_of_ink {first : Char} {rest : List Char} (ink : isBlank first = false) :
    trimLeft (first :: rest) = first :: rest := by
  unfold trimLeft
  exact List.dropWhile_cons_of_neg (by rw [ink]; decide)

theorem trim_right_behind_ink {c : Char} (ink : isBlank c = false) (before behind : List Char) :
    trimRight (before ++ c :: behind) = before ++ c :: trimRight behind := by
  have kept : (c :: before.reverse).dropWhile isBlank = c :: before.reverse := trim_left_of_ink ink
  unfold trimRight
  rw [List.reverse_append, List.reverse_cons, List.append_assoc, List.singleton_append,
    List.dropWhile_append, kept]
  split
  · rename_i blank
    rw [List.isEmpty_iff.mp blank]
    simp
  · simp

theorem trim_right_of_ink {before : List Char} {last : Char} (ink : isBlank last = false) :
    trimRight (before ++ [last]) = before ++ [last] :=
  trim_right_behind_ink ink before []

namespace IsTrimmed

variable {text : List Char}

theorem ne_nil (trimmed : IsTrimmed text) : text ≠ [] := by
  obtain ⟨first, rest, rfl, _⟩ := trimmed.starts
  exact List.cons_ne_nil first rest

theorem trim_left (trimmed : IsTrimmed text) : trimLeft text = text := by
  obtain ⟨first, rest, rfl, ink⟩ := trimmed.starts
  exact trim_left_of_ink ink

theorem trim (trimmed : IsTrimmed text) : Text.trim text = text := by
  obtain ⟨before, last, parts, ink⟩ := trimmed.ends
  rw [Text.trim, trimmed.trim_left, parts, trim_right_of_ink ink]

theorem of_ink (given : text ≠ []) (ink : ∀ c ∈ text, isBlank c = false) : IsTrimmed text where
  starts := by
    obtain ⟨first, rest, rfl⟩ := List.exists_cons_of_ne_nil given
    exact ⟨first, rest, rfl, ink first List.mem_cons_self⟩
  ends := ⟨text.dropLast, text.getLast given, (List.dropLast_concat_getLast given).symm,
    ink _ (List.getLast_mem given)⟩

theorem joined {left right : List Char} (leftTrimmed : IsTrimmed left)
    (rightTrimmed : IsTrimmed right) : IsTrimmed (left ++ ' ' :: right) where
  starts := by
    obtain ⟨first, rest, rfl, ink⟩ := leftTrimmed.starts
    exact ⟨first, rest ++ ' ' :: right, rfl, ink⟩
  ends := by
    obtain ⟨before, last, rfl, ink⟩ := rightTrimmed.ends
    exact ⟨left ++ ' ' :: before, last, by simp, ink⟩

end IsTrimmed

section Ink

variable {left : List Char} (ink : ∀ c ∈ left, isBlank c = false) (right : List Char)

include ink

theorem take_ink : (left ++ ' ' :: right).takeWhile (fun c => !isBlank c) = left := by
  rw [List.takeWhile_append_of_pos fun c member => by rw [ink c member]; rfl,
    List.takeWhile_cons_of_neg (by decide), List.append_nil]

theorem drop_ink : (left ++ ' ' :: right).dropWhile (fun c => !isBlank c) = ' ' :: right := by
  rw [List.dropWhile_append_of_pos fun c member => by rw [ink c member]; rfl,
    List.dropWhile_cons_of_neg (by decide)]

end Ink

theorem trim_left_of_blank {text : List Char} (trimmed : IsTrimmed text) :
    trimLeft (' ' :: text) = text := by
  have skipped : trimLeft (' ' :: text) = trimLeft text := rfl
  rw [skipped, trimmed.trim_left]

end Text

namespace Clause

theorem three_parts_of_written {field keyword rest : List Char}
    (fieldInk : ∀ c ∈ field, Text.isBlank c = false)
    (keywordInk : ∀ c ∈ keyword, Text.isBlank c = false) (keywordGiven : keyword ≠ [])
    (trimmed : Text.IsTrimmed rest) :
    threeParts? (field ++ ' ' :: (keyword ++ ' ' :: rest)) = some (field, keyword, rest) := by
  have keywordTrimmed : Text.IsTrimmed (keyword ++ ' ' :: rest) :=
    (Text.IsTrimmed.of_ink keywordGiven keywordInk).joined trimmed
  unfold threeParts?
  simp only [Text.take_ink fieldInk, Text.drop_ink fieldInk,
    Text.trim_left_of_blank keywordTrimmed, Text.take_ink keywordInk, Text.drop_ink keywordInk,
    Text.trim_left_of_blank trimmed]
  rw [if_neg (by rw [List.isEmpty_iff]; exact trimmed.ne_nil)]

end Clause

end QueryOptions
