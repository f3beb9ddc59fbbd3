import QueryOptions.Identifier

/-!
Splitting undoes joining. A text split at a character comes apart exactly at its separators, so a
path qualified by another path is again a path.
-/

namespace QueryOptions.Text

theorem split_at_char_ne_nil (separator : Char) (text : List Char) :
    splitAtChar separator text ≠ [] := by
  cases text with
  | nil => simp [splitAtChar]
  | cons c rest =>
      unfold splitAtChar
      split
      · simp
      · split <;> simp

theorem split_at_char_append (separator : Char) (left right : List Char) :
    splitAtChar separator (left ++ separator :: right) =
      splitAtChar separator left ++ splitAtChar separator right := by
  induction left with
  | nil => simp [splitAtChar]
  | cons c left induction =>
      simp only [List.cons_append, splitAtChar, induction]
      by_cases same : c = separator
      · simp only [same, if_true, List.cons_append]
      · simp only [same, if_false]
        cases pieces : splitAtChar separator left with
        | nil => exact absurd pieces (split_at_char_ne_nil separator left)
        | cons piece others => rfl

theorem split_at_char_of_mem {separator : Char} {text : List Char} (member : separator ∈ text) :
    ∃ first second others, splitAtChar separator text = first :: second :: others := by
  obtain ⟨left, right, rfl⟩ := List.append_of_mem member
  obtain ⟨first, before, leftPieces⟩ :=
    List.exists_cons_of_ne_nil (split_at_char_ne_nil separator left)
  obtain ⟨second, behind, rightPieces⟩ :=
    List.exists_cons_of_ne_nil (split_at_char_ne_nil separator right)
  rw [split_at_char_append, leftPieces, rightPieces]
  cases before with
  | nil => exact ⟨first, second, behind, rfl⟩
  | cons next before => exact ⟨first, next, before ++ second :: behind, rfl⟩

theorem split_at_char_of_not_mem {separator : Char} {text : List Char}
    (absent : separator ∉ text) : splitAtChar separator text = [text] := by
  induction text with
  | nil => rfl
  | cons c rest induction =>
      rw [List.mem_cons, not_or] at absent
      simp only [splitAtChar, Ne.symm absent.1, if_false, induction absent.2]

theorem split_at_char_intercalate {separator : Char} {pieces : List (List Char)}
    (given : pieces ≠ []) (free : ∀ piece ∈ pieces, separator ∉ piece) :
    splitAtChar separator ([separator].intercalate pieces) = pieces := by
  induction pieces with
  | nil => exact absurd rfl given
  | cons piece pieces induction =>
      have alone := split_at_char_of_not_mem (free piece List.mem_cons_self)
      cases pieces with
      | nil => rwa [List.intercalate_singleton]
      | cons next others =>
          have rest := induction (List.cons_ne_nil next others) fun other member =>
            free other (List.mem_cons_of_mem piece member)
          rw [List.intercalate_cons_cons, List.append_assoc, List.singleton_append,
            split_at_char_append, alone, rest]
          rfl

theorem drop_prefix_of_append {start text : List Char} (more : List Char)
    (absent : dropPrefix? start (text ++ more) = none) : dropPrefix? start text = none := by
  cases found : dropPrefix? start text with
  | none => rfl
  | some rest =>
      rw [eq_append_of_dropped found, List.append_assoc, drop_prefix_append] at absent
      cases absent

/-- A word and a blank that do not open a text followed by a blank do not open it when more comes
behind the blank: they would have to end in the text. -/
theorem word_absent_behind_blank {word text : List Char} (rest : List Char)
    (inked : ' ' ∉ word) (absent : dropPrefix? (word ++ [' ']) (text ++ [' ']) = none) :
    dropPrefix? (word ++ [' ']) (text ++ ' ' :: rest) = none := by
  induction word generalizing text with
  | nil =>
      cases text with
      | nil => cases absent
      | cons c text =>
          have notBlank : ' ' ≠ c := by simpa [dropPrefix?] using absent
          simp [dropPrefix?, notBlank]
  | cons letter word induction =>
      rw [List.mem_cons, not_or] at inked
      cases text with
      | nil => simp [dropPrefix?, Ne.symm inked.1]
      | cons c text =>
          by_cases same : letter = c
          · simp only [List.cons_append, dropPrefix?, same, if_true] at absent ⊢
            exact induction inked.2 absent
          · simp [dropPrefix?, same]

theorem occurs_behind_ink {word left : List Char} (right : List Char) (inked : ' ' ∉ left) :
    occursIn (' ' :: word) (left ++ right) = occursIn (' ' :: word) right := by
  induction left with
  | nil => rfl
  | cons c left induction =>
      rw [List.mem_cons, not_or] at inked
      rw [List.cons_append, occursIn, induction inked.2]
      simp [dropPrefix?, inked.1]

theorem drop_prefix_before {start text : List Char} {foreign : Char} (more : List Char)
    (unused : foreign ∉ start) (absent : dropPrefix? start text = none) :
    dropPrefix? start (text ++ foreign :: more) = none := by
  induction start generalizing text with
  | nil => cases absent
  | cons letter start induction =>
      rw [List.mem_cons, not_or] at unused
      cases text with
      | nil => simp [dropPrefix?, Ne.symm unused.1]
      | cons c text =>
          by_cases same : letter = c
          · simp only [List.cons_append, dropPrefix?, same, if_true] at absent ⊢
            exact induction unused.2 absent
          · simp [dropPrefix?, same]

theorem occurs_beyond {piece text : List Char} {foreign : Char} (more : List Char)
    (unused : foreign ∉ piece) (absent : occursIn piece text = false) :
    occursIn piece (text ++ foreign :: more) = occursIn piece more := by
  induction text with
  | nil =>
      have given : dropPrefix? piece [] = none := by
        cases piece with
        | nil => cases absent
        | cons letter piece => rfl
      have here := drop_prefix_before more unused given
      rw [List.nil_append] at here ⊢
      rw [occursIn, here]
      rfl
  | cons c text induction =>
      simp only [occursIn, Bool.or_eq_false_iff] at absent
      rw [Option.isSome_eq_false_iff, Option.isNone_iff_eq_none] at absent
      have here : dropPrefix? piece (c :: (text ++ foreign :: more)) = none :=
        drop_prefix_before more unused absent.1
      rw [List.cons_append, occursIn, here, induction absent.2]
      rfl

theorem absent_in_part {first : Char} {others text more : List Char}
    (absent : occursIn (first :: others) (text ++ more) = false) :
    occursIn (first :: others) text = false := by
  induction text with
  | nil => rfl
  | cons c text induction =>
      simp only [List.cons_append, occursIn, Bool.or_eq_false_iff, Option.isSome_eq_false_iff,
        Option.isNone_iff_eq_none] at absent ⊢
      exact ⟨drop_prefix_of_append more absent.1, induction absent.2⟩

theorem drop_prefix_iff (start text : List Char) :
    (dropPrefix? start text).isSome = true ↔ start <+: text := by
  rw [Option.isSome_iff_exists]
  constructor
  · rintro ⟨rest, found⟩
    exact ⟨rest, (eq_append_of_dropped found).symm⟩
  · rintro ⟨rest, rfl⟩
    exact ⟨rest, drop_prefix_append start rest⟩

theorem occurs_iff_infix (piece text : List Char) :
    occursIn piece text = true ↔ piece <:+: text := by
  induction text with
  | nil => rw [occursIn, List.isEmpty_iff, List.infix_nil]
  | cons c text induction =>
      rw [occursIn, Bool.or_eq_true, drop_prefix_iff, induction, List.infix_cons_iff]

section Pieces

variable {first : Char} {others : List Char}

theorem split_at_text_found {text rest : List Char}
    (found : dropPrefix? (first :: others) text = some rest) :
    splitAtText first others text = [] :: splitAtText first others rest := by
  cases text with
  | nil => cases found
  | cons c text =>
      rw [splitAtText]
      split
      · rename_i remaining opened
        rw [found] at opened
        cases opened
        rfl
      · rename_i absent
        rw [found] at absent
        cases absent

theorem split_at_text_passed {c : Char} {rest piece : List Char} {pieces : List (List Char)}
    (absent : dropPrefix? (first :: others) (c :: rest) = none)
    (split : splitAtText first others rest = piece :: pieces) :
    splitAtText first others (c :: rest) = (c :: piece) :: pieces := by
  rw [splitAtText]
  split
  · rename_i remaining found
    rw [absent] at found
    cases found
  · rw [split]

/-- The pieces of a text: the separator ends a piece where the text goes on with it, and every other
character belongs to the piece that it opens. -/
inductive Splits (first : Char) (others : List Char) : List Char → List (List Char) → Prop where
  | nil : Splits first others [] [[]]
  | found {text rest : List Char} {pieces : List (List Char)}
      (opened : dropPrefix? (first :: others) text = some rest)
      (splits : Splits first others rest pieces) : Splits first others text ([] :: pieces)
  | passed {c : Char} {rest piece : List Char} {pieces : List (List Char)}
      (absent : dropPrefix? (first :: others) (c :: rest) = none)
      (splits : Splits first others rest (piece :: pieces)) :
      Splits first others (c :: rest) ((c :: piece) :: pieces)

namespace Splits

variable {text : List Char} {pieces : List (List Char)}

theorem eq (splits : Splits first others text pieces) : splitAtText first others text = pieces := by
  induction splits with
  | nil => rw [splitAtText]
  | found opened _ induction => rw [split_at_text_found opened, induction]
  | passed absent _ induction => exact split_at_text_passed absent induction

theorem given (splits : Splits first others text pieces) :
    ∃ piece behind, pieces = piece :: behind := by
  cases splits <;> exact ⟨_, _, rfl⟩

theorem alone {text : List Char} (free : occursIn (first :: others) text = false) :
    Splits first others text [text] := by
  induction text with
  | nil => exact .nil
  | cons c text induction =>
      simp only [occursIn, Bool.or_eq_false_iff, Option.isSome_eq_false_iff,
        Option.isNone_iff_eq_none] at free
      exact .passed free.1 (induction free.2)

theorem exists_pieces (first : Char) (others text : List Char) :
    ∃ pieces, Splits first others text pieces := by
  -- By length: when the separator is found, the rest is what comes behind it.
  induction length : text.length using Nat.strongRecOn generalizing text with
  | ind length induction =>
      subst length
      cases text with
      | nil => exact ⟨_, .nil⟩
      | cons c text =>
          cases opened : dropPrefix? (first :: others) (c :: text) with
          | some rest =>
              have parts := congrArg List.length (eq_append_of_dropped opened)
              simp only [List.length_append, List.length_cons] at parts
              obtain ⟨pieces, splits⟩ := induction rest.length (by simp; omega) rest rfl
              exact ⟨_, .found opened splits⟩
          | none =>
              obtain ⟨pieces, splits⟩ := induction text.length (Nat.lt_succ_self _) text rfl
              obtain ⟨piece, behind, rfl⟩ := splits.given
              exact ⟨_, .passed opened splits⟩

theorem of_split (first : Char) (others text : List Char) :
    Splits first others text (splitAtText first others text) := by
  obtain ⟨pieces, splits⟩ := exists_pieces first others text
  rwa [splits.eq]

theorem first_opens (splits : Splits first others text pieces) :
    ∀ piece ∈ pieces.head?, piece <+: text := by
  induction splits with
  | nil => simp
  | found opened _ _ => simp
  | passed absent _ induction =>
      simp only [List.head?_cons, Option.mem_some_iff, forall_eq'] at induction ⊢
      exact (List.prefix_cons_inj _).mpr induction

/-- The separator occurs in no piece: it would have been found there. -/
theorem free (splits : Splits first others text pieces) :
    ∀ piece ∈ pieces, occursIn (first :: others) piece = false := by
  induction splits with
  | nil => simp [occursIn]
  | found _ _ induction =>
      intro piece member
      rcases List.mem_cons.mp member with rfl | later
      · rfl
      · exact induction piece later
  | passed absent splits induction =>
      intro piece member
      rcases List.mem_cons.mp member with rfl | later
      · obtain ⟨more, rfl⟩ := splits.first_opens _ rfl
        rw [occursIn, drop_prefix_of_append more absent, induction _ List.mem_cons_self]
        rfl
      · exact induction piece (List.mem_cons_of_mem _ later)

/-- No separator reaches across a character that it does not have: the last piece before it and the
first piece behind it become one. -/
theorem across {foreign : Char} (unused : foreign ∉ first :: others)
    {left right last next : List Char} {before behind : List (List Char)}
    (leftSplits : Splits first others left (before ++ [last]))
    (rightSplits : Splits first others right (next :: behind)) :
    Splits first others (left ++ foreign :: right)
      (before ++ (last ++ foreign :: next) :: behind) := by
  generalize whole : before ++ [last] = pieces at leftSplits
  induction leftSplits generalizing before last with
  | nil =>
      obtain ⟨rfl, rfl⟩ : before = [] ∧ last = [] := by
        cases before with
        | nil => exact ⟨rfl, (List.cons.inj whole).1⟩
        | cons piece before => simp at whole
      have nothing : dropPrefix? (first :: others) [] = none := rfl
      exact .passed (drop_prefix_before right unused nothing) rightSplits
  | @found _ rest _ opened splits induction =>
      rw [eq_append_of_dropped opened, List.append_assoc]
      cases before with
      | nil =>
          obtain ⟨_, rfl⟩ := List.cons.inj whole
          obtain ⟨_, _, given⟩ := splits.given
          cases given
      | cons _ before =>
          obtain ⟨rfl, behindFirst⟩ := List.cons.inj whole
          exact .found (drop_prefix_append _ _) (induction behindFirst)
  | passed absent _ induction =>
      have absent := drop_prefix_before right unused absent
      cases before with
      | nil =>
          obtain ⟨rfl, rfl⟩ := List.cons.inj whole
          exact .passed absent (induction (List.nil_append _))
      | cons _ before =>
          obtain ⟨rfl, rfl⟩ := List.cons.inj whole
          exact .passed absent (induction (List.cons_append))

theorem append_separated {foreign : Char} (unused : foreign ∉ first :: others)
    {left rest : List Char} {leftPieces restPieces : List (List Char)}
    (leftSplits : Splits first others (left ++ [foreign]) leftPieces)
    (restSplits : Splits first others rest restPieces) :
    Splits first others (left ++ foreign :: (first :: others ++ rest))
      (leftPieces ++ restPieces) := by
  obtain ⟨pieces, splits⟩ := exists_pieces first others left
  obtain ⟨before, last, rfl⟩ : ∃ before last, pieces = before ++ [last] := by
    obtain ⟨piece, behind, rfl⟩ := splits.given
    exact ⟨_, _, (List.dropLast_concat_getLast (List.cons_ne_nil piece behind)).symm⟩
  have closed := (splits.across unused .nil).eq
  rw [leftSplits.eq] at closed
  rw [closed, List.append_assoc]
  exact splits.across unused (.found (drop_prefix_append _ rest) restSplits)

end Splits

end Pieces

section Words

variable {word : List Char} (inked : ' ' ∉ word)

include inked

/-- A piece in which a word between blanks does not occur, not even with a blank behind the piece,
comes off in one part. The induction is on the piece. -/
theorem split_at_word_append {piece : List Char} (rest : List Char)
    (free : occursIn (' ' :: (word ++ [' '])) (piece ++ [' ']) = false) :
    splitAtText ' ' (word ++ [' ']) (piece ++ ' ' :: (word ++ [' '] ++ rest)) =
      piece :: splitAtText ' ' (word ++ [' ']) rest := by
  induction piece with
  | nil =>
      have separated : dropPrefix? (' ' :: (word ++ [' '])) (' ' :: (word ++ [' '] ++ rest)) =
          some rest := drop_prefix_append (' ' :: (word ++ [' '])) rest
      rw [List.nil_append, split_at_text_found separated]
  | cons c piece induction =>
      simp only [List.cons_append, occursIn, Bool.or_eq_false_iff] at free
      obtain ⟨notHere, later⟩ := free
      have absent : dropPrefix? (' ' :: (word ++ [' ']))
          (c :: (piece ++ ' ' :: (word ++ [' '] ++ rest))) = none := by
        rw [Option.isSome_eq_false_iff, Option.isNone_iff_eq_none] at notHere
        unfold dropPrefix? at notHere ⊢
        by_cases blank : ' ' = c
        · rw [if_pos blank] at notHere ⊢
          exact word_absent_behind_blank (word ++ [' '] ++ rest) inked notHere
        · rw [if_neg blank]
      exact split_at_text_passed absent (induction later)

omit inked in
theorem split_at_word_alone {piece : List Char}
    (free : occursIn (' ' :: (word ++ [' '])) (piece ++ [' ']) = false) :
    splitAtText ' ' (word ++ [' ']) piece = [piece] :=
  (Splits.alone (absent_in_part free)).eq

theorem split_at_word_intercalate {pieces : List (List Char)} (given : pieces ≠ [])
    (free : ∀ piece ∈ pieces, occursIn (' ' :: (word ++ [' '])) (piece ++ [' ']) = false) :
    splitAtText ' ' (word ++ [' ']) ((' ' :: (word ++ [' '])).intercalate pieces) = pieces := by
  induction pieces with
  | nil => exact absurd rfl given
  | cons piece pieces induction =>
      have pieceFree := free piece List.mem_cons_self
      cases pieces with
      | nil =>
          rw [List.intercalate_singleton]
          exact split_at_word_alone pieceFree
      | cons next others =>
          have joined := split_at_word_append inked
            ((' ' :: (word ++ [' '])).intercalate (next :: others)) pieceFree
          rw [List.intercalate_cons_cons, List.append_assoc]
          rw [induction (List.cons_ne_nil next others) fun other member =>
            free other (List.mem_cons_of_mem piece member)] at joined
          exact joined

/-- A separator behind a text cuts it off from what follows: none of the text's own separators ends
there, unless the text ends with the separator up to its last blank. -/
theorem Splits.append_at_word {left right : List Char} {leftPieces rightPieces : List (List Char)}
    (leftSplits : Splits ' ' (word ++ [' ']) left leftPieces) (closed : ¬(' ' :: word <:+ left))
    (rightSplits : Splits ' ' (word ++ [' ']) right rightPieces) :
    Splits ' ' (word ++ [' ']) (left ++ ' ' :: (word ++ [' '] ++ right))
      (leftPieces ++ rightPieces) := by
  induction leftSplits with
  | nil => exact .found (drop_prefix_append (' ' :: (word ++ [' '])) right) rightSplits
  | @found text rest pieces opened _ induction =>
      have whole := eq_append_of_dropped opened
      have restClosed : ¬(' ' :: word <:+ rest) := fun suffix =>
        closed (whole ▸ suffix.trans (List.suffix_append _ _))
      rw [whole, List.append_assoc]
      exact .found (drop_prefix_append _ _) (induction restClosed)
  | @passed c rest piece pieces absent _ induction =>
      have restClosed : ¬(' ' :: word <:+ rest) := fun suffix =>
        closed (suffix.trans (List.suffix_cons c rest))
      refine .passed ?_ (induction restClosed)
      by_cases blank : ' ' = c
      · subst blank
        simp only [dropPrefix?, if_true] at absent ⊢
        refine word_absent_behind_blank (word ++ [' '] ++ right) inked ?_
        -- The word and a blank could open the rest only if the rest were the word alone.
        rw [← Option.isNone_iff_eq_none, ← Option.isSome_eq_false_iff, ← Bool.not_eq_true,
          drop_prefix_iff]
        intro opens
        rcases List.prefix_concat_iff.mp opens with same | inside
        · exact closed (List.append_cancel_right same ▸ List.suffix_rfl)
        · rw [← drop_prefix_iff, absent] at inside
          cases inside
      · simp [dropPrefix?, blank]

end Words

end QueryOptions.Text

namespace QueryOptions.Identifier

theorem is_path_qualified {qualifier name : String} (qualifierPath : isPath qualifier = true)
    (namePath : isPath name = true) : isPath (qualifier ++ "." ++ name) = true := by
  have joined : (qualifier ++ "." ++ name).toList = qualifier.toList ++ '.' :: name.toList := by
    simp
  unfold isPath isPathFrom at *
  rw [joined, Text.split_at_char_append, List.all_append, qualifierPath, namePath]
  rfl

end QueryOptions.Identifier
