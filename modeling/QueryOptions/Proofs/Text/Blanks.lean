import Mathlib.Data.List.DropRight
import QueryOptions.Proofs.Text.Trimming
import QueryOptions.Text.Word

/-!
Runs of blanks. Blanks at the ends of a text are exactly what trimming takes away, so a text is its
trimmed middle between two runs of blanks. No blank belongs to a word.
-/

namespace QueryOptions.Text

def Blanks (text : List Char) : Prop := ∀ c ∈ text, isBlank c = true

instance (text : List Char) : Decidable (Blanks text) :=
  decidable_of_iff (text.all isBlank = true) List.all_eq_true

def blankCodes : List Nat :=
  List.range' 0x09 5 ++ List.range' 0x1c 5 ++ [0x85, 0xa0, 0x1680] ++ List.range' 0x2000 11 ++
    [0x2028, 0x2029, 0x202f, 0x205f, 0x3000]

theorem blank_code {c : Char} (blank : isBlank c = true) : c.toNat ∈ blankCodes := by
  simp only [isBlank, Bool.or_eq_true, Bool.and_eq_true, decide_eq_true_eq, beq_iff_eq] at blank
  simp only [blankCodes, List.mem_append, List.mem_range'_1, List.mem_cons, List.not_mem_nil,
    or_false]
  omega

theorem blank_not_word {c : Char} (blank : isBlank c = true) : isWord c = false := by
  have table : ∀ code ∈ blankCodes, isWord (Char.ofNat code) = false := by decide +kernel
  have found := table c.toNat (blank_code blank)
  rwa [Char.ofNat_toNat] at found

section Runs

variable {p : Char → Bool} {run : List Char} {next : Char} (inside : ∀ c ∈ run, p c = true)
  (outside : p next = false) (rest : List Char)

include inside outside

theorem take_run : (run ++ next :: rest).takeWhile p = run := by
  rw [List.takeWhile_append_of_pos inside, List.takeWhile_cons_of_neg (by simp [outside]),
    List.append_nil]

theorem drop_run : (run ++ next :: rest).dropWhile p = next :: rest := by
  rw [List.dropWhile_append_of_pos inside, List.dropWhile_cons_of_neg (by simp [outside])]

end Runs

namespace Blanks

variable {left right : List Char}

theorem trim_left_append (blanks : Blanks left) (text : List Char) :
    trimLeft (left ++ text) = trimLeft text :=
  List.dropWhile_append_of_pos blanks

theorem trim_left_eq_nil (blanks : Blanks left) : trimLeft left = [] :=
  List.dropWhile_eq_nil_iff.mpr blanks

theorem trim_right_append (blanks : Blanks right) (text : List Char) :
    trimRight (text ++ right) = trimRight text := by
  have reversed : ∀ c ∈ right.reverse, isBlank c = true := fun c member =>
    blanks c (List.mem_reverse.mp member)
  unfold trimRight
  rw [List.reverse_append, List.dropWhile_append_of_pos reversed]

theorem trim_eq_nil (blanks : Blanks left) : trim left = [] := by
  rw [trim, blanks.trim_left_eq_nil]
  rfl

theorem trim_between (leftBlanks : Blanks left) (rightBlanks : Blanks right) (text : List Char) :
    trim (left ++ text ++ right) = trim text := by
  rw [List.append_assoc, trim, leftBlanks.trim_left_append]
  by_cases blank : Blanks text
  · have all : Blanks (text ++ right) := fun c member =>
      (List.mem_append.mp member).elim (blank c) (rightBlanks c)
    rw [all.trim_left_eq_nil, blank.trim_eq_nil]
    rfl
  · have kept : trimLeft (text ++ right) = trimLeft text ++ right := by
      unfold trimLeft
      rw [List.dropWhile_append, if_neg]
      rwa [List.isEmpty_iff, List.dropWhile_eq_nil_iff]
    rw [kept, rightBlanks.trim_right_append, trim]

end Blanks

theorem blanks_before_trim_left (text : List Char) :
    ∃ left, Blanks left ∧ text = left ++ trimLeft text :=
  ⟨text.takeWhile isBlank, fun _ member => List.mem_takeWhile_imp member,
    (List.takeWhile_append_dropWhile).symm⟩

theorem blanks_behind_trim_right (text : List Char) :
    ∃ right, Blanks right ∧ text = trimRight text ++ right := by
  obtain ⟨left, blanks, parts⟩ := blanks_before_trim_left text.reverse
  refine ⟨left.reverse, fun c member => blanks c (List.mem_reverse.mp member), ?_⟩
  have again := congrArg List.reverse parts
  rwa [List.reverse_reverse, List.reverse_append] at again

theorem blanks_around_trim (text : List Char) :
    ∃ left right, Blanks left ∧ Blanks right ∧ text = left ++ trim text ++ right := by
  obtain ⟨left, leftBlanks, leftParts⟩ := blanks_before_trim_left text
  obtain ⟨right, rightBlanks, rightParts⟩ := blanks_behind_trim_right (trimLeft text)
  refine ⟨left, right, leftBlanks, rightBlanks, ?_⟩
  rw [List.append_assoc]
  exact leftParts.trans (congrArg (left ++ ·) rightParts)

theorem trim_trim (text : List Char) : trim (trim text) = trim text := by
  obtain ⟨left, right, leftBlanks, rightBlanks, parts⟩ := blanks_around_trim text
  have middle := leftBlanks.trim_between rightBlanks (trim text)
  rwa [← parts, eq_comm] at middle

theorem trim_trim_left (text : List Char) : trim (trimLeft text) = trim text :=
  congrArg trimRight (List.dropWhile_idempotent isBlank text)

theorem mem_of_mem_trim {text : List Char} {c : Char} (member : c ∈ trim text) : c ∈ text := by
  obtain ⟨left, right, _, _, parts⟩ := blanks_around_trim text
  rw [parts]
  simp [member]

theorem no_blanks_around {before middle behind : List Char}
    (trimmed : trim (before ++ middle ++ behind) = before ++ middle ++ behind)
    (beforeBlanks : Blanks before) (behindBlanks : Blanks behind) : before = [] ∧ behind = [] := by
  have cut := beforeBlanks.trim_between behindBlanks middle
  obtain ⟨left, right, _, _, parts⟩ := blanks_around_trim middle
  have lengths := congrArg List.length parts
  have shorter := congrArg List.length (cut.symm.trans trimmed)
  simp only [List.length_append] at lengths shorter
  exact ⟨List.length_eq_zero_iff.mp (by omega), List.length_eq_zero_iff.mp (by omega)⟩

theorem no_blanks_behind {before behind : List Char}
    (trimmed : trim (before ++ behind) = before ++ behind) (blanks : Blanks behind) :
    behind = [] :=
  have nothing : Blanks [] := by simp [Blanks]
  (no_blanks_around trimmed nothing blanks).2

theorem blanks_of_trim_eq_nil {text : List Char} (nothing : trim text = []) : Blanks text := by
  obtain ⟨left, right, leftBlanks, rightBlanks, parts⟩ := blanks_around_trim text
  rw [nothing, List.append_nil] at parts
  rw [parts]
  exact fun c member => (List.mem_append.mp member).elim (leftBlanks c) (rightBlanks c)

theorem trimmed_of_inked {text : List Char} (inked : ¬Blanks text) : IsTrimmed (trim text) := by
  have given : trim text ≠ [] := fun nothing => inked (blanks_of_trim_eq_nil nothing)
  have nothing : Blanks [] := by simp [Blanks]
  have single {c : Char} (blank : isBlank c = true) : Blanks [c] := fun d member => by
    rwa [List.mem_singleton.mp member]
  have again := trim_trim text
  constructor
  · obtain ⟨first, rest, parts⟩ := List.exists_cons_of_ne_nil given
    refine ⟨first, rest, parts, Bool.eq_false_iff.mpr fun blank => ?_⟩
    have whole : trim text = [first] ++ rest ++ [] := by simp [parts]
    rw [whole] at again
    exact absurd (no_blanks_around again (single blank) nothing).1 (List.cons_ne_nil _ _)
  · have parts := (List.dropLast_concat_getLast given).symm
    refine ⟨_, _, parts, Bool.eq_false_iff.mpr fun blank => ?_⟩
    rw [parts] at again
    exact absurd (no_blanks_behind again (single blank)) (List.cons_ne_nil _ _)

end QueryOptions.Text
