import QueryOptions.Proofs.Grammar.Derivation

/-!
The parts of a clause as they are cut. Each form is cut in one way only, at the first blanks or at
the parentheses, and a text that can be cut in any way at all is cut so. What the cuts leave open is
how many blanks belong to a value, and trimming makes up for that.
-/

namespace QueryOptions

namespace Clause

section CaselessWords

theorem blank_lower {c : Char} (blank : Text.isBlank c = true) : c.toLower.isAlpha = false := by
  have table : ∀ code ∈ Text.blankCodes, (Char.ofNat code).toLower.isAlpha = false := by decide
  have found := table c.toNat (Text.blank_code blank)
  rwa [Char.ofNat_toNat] at found

theorem ink_of_spelled {text word : List Char} (letters : word.all Char.isAlpha = true)
    (spelled : lowerAscii text = word) : ∀ c ∈ text, Text.isBlank c = false := by
  intro c member
  have letter : c.toLower.isAlpha = true := by
    refine List.all_eq_true.mp letters c.toLower ?_
    rw [← spelled]
    exact List.mem_map_of_mem member
  cases blank : Text.isBlank c with
  | false => rfl
  | true =>
      rw [blank_lower blank] at letter
      cases letter

theorem lower_eq_self_or_letter (c : Char) :
    c.toLower = c ∨ c.isAlpha = true ∧ c.toLower.isAlpha = true := by
  by_cases upper : 65 ≤ c.toNat ∧ c.toNat < 91
  · have table : ∀ code < 91, 65 ≤ code →
        (Char.ofNat code).isAlpha = true ∧ (Char.ofNat code).toLower.isAlpha = true := by decide
    have found := table c.toNat upper.2 upper.1
    rw [Char.ofNat_toNat] at found
    exact .inr found
  · exact .inl (dif_neg fun range => upper ⟨range.1, Nat.lt_succ_of_le range.2⟩)

theorem eq_of_lower {c other : Char} (noLetter : other.isAlpha = false)
    (lower : c.toLower = other) : c = other := by
  rcases lower_eq_self_or_letter c with same | ⟨_, letter⟩
  · rw [← same, lower]
  · rw [lower, noLetter] at letter
    cases letter

/-- Quotes have no letter case, so around a word spelled in any case they are themselves. -/
theorem lower_quoted_iff {quote : Char} (noLetter : quote.isAlpha = false) (text word : List Char) :
    lowerAscii text = quote :: (word ++ [quote]) ↔
      ∃ inner, text = quote :: (inner ++ [quote]) ∧ lowerAscii inner = word := by
  unfold lowerAscii
  constructor
  · intro spelled
    obtain ⟨first, rest, rfl, opens, closes⟩ := List.map_eq_cons_iff.mp spelled
    obtain ⟨inner, ending, rfl, letters, closed⟩ := List.map_eq_append_iff.mp closes
    obtain ⟨last, nothing, rfl, closing, none⟩ := List.map_eq_cons_iff.mp closed
    rw [List.map_eq_nil_iff] at none
    rw [none, eq_of_lower noLetter opens, eq_of_lower noLetter closing]
    exact ⟨inner, rfl, letters⟩
  · rintro ⟨inner, rfl, rfl⟩
    have self : quote.toLower = quote := by
      rcases lower_eq_self_or_letter quote with same | ⟨letter, _⟩
      · exact same
      · rw [noLetter] at letter
        cases letter
    simp [self]

theorem null_word_iff (text : List Char) : isNullWord text = true ↔ NullWord text := by
  unfold isNullWord
  simp only [Bool.or_eq_true, decide_eq_true_eq]
  have single : "'null'".toList = '\'' :: ("null".toList ++ ['\'']) := rfl
  have double : "\"null\"".toList = '"' :: ("null".toList ++ ['"']) := rfl
  rw [single, double, lower_quoted_iff (by decide), lower_quoted_iff (by decide)]
  constructor
  · rintro ((bare | ⟨inner, rfl, letters⟩) | ⟨inner, rfl, letters⟩)
    · exact .bare bare
    · exact .quoted (.inl rfl) letters
    · exact .quoted (.inr rfl) letters
  · rintro (bare | ⟨rfl | rfl, letters⟩)
    · exact .inl (.inl bare)
    · exact .inl (.inr ⟨_, rfl, letters⟩)
    · exact .inr ⟨_, rfl, letters⟩

theorem NullWord.ink {word : List Char} (null : NullWord word) :
    word ≠ [] ∧ ∀ c ∈ word, Text.isBlank c = false := by
  cases null with
  | bare letters =>
      refine ⟨?_, ink_of_spelled (by decide) letters⟩
      rintro rfl
      cases letters
  | @quoted quote word isQuote letters =>
      have quoteInk : Text.isBlank quote = false := by rcases isQuote with rfl | rfl <;> rfl
      refine ⟨List.cons_ne_nil _ _, ?_⟩
      intro c member
      simp only [List.mem_cons, List.mem_append, List.not_mem_nil, or_false] at member
      rcases member with rfl | inner | rfl
      · exact quoteInk
      · exact ink_of_spelled (by decide) letters c inner
      · exact quoteInk

theorem NullWord.opens {word : List Char} (null : NullWord word) :
    ∃ first rest, word = first :: rest ∧ (first = '\'' ∨ first = '"' ∨ first.toLower = 'n') := by
  cases null with
  | bare letters =>
      obtain ⟨first, rest, rfl, lower, _⟩ := List.map_eq_cons_iff.mp letters
      exact ⟨first, rest, rfl, .inr (.inr lower)⟩
  | quoted isQuote letters => exact ⟨_, _, rfl, isQuote.imp_right .inl⟩

theorem null_word_quoted {quote : Char} {inner : List Char}
    (isQuote : quote = '\'' ∨ quote = '"') (null : NullWord (quote :: (inner ++ [quote]))) :
    lowerAscii inner = "null".toList := by
  have quoteCase : quote.toLower ≠ 'n' := by rcases isQuote with rfl | rfl <;> decide
  generalize whole : quote :: (inner ++ [quote]) = text at null
  cases null with
  | bare letters =>
      rw [← whole] at letters
      exact absurd (List.cons.inj letters).1 quoteCase
  | quoted _ letters =>
      obtain ⟨_, same⟩ := List.cons.inj whole
      rwa [(List.append_inj_left' same rfl)]

end CaselessWords

section Parts

theorem ink_then_blanks {run blanks : List Char} (ink : ∀ c ∈ run, Text.isBlank c = false)
    (isBlanks : Text.Blanks blanks) (given : blanks ≠ []) (rest : List Char) :
    (run ++ (blanks ++ rest)).takeWhile (fun c => !Text.isBlank c) = run ∧
      Text.trimLeft ((run ++ (blanks ++ rest)).dropWhile fun c => !Text.isBlank c) =
        Text.trimLeft rest := by
  obtain ⟨first, others, rfl⟩ := List.exists_cons_of_ne_nil given
  have inside : ∀ c ∈ run, (!Text.isBlank c) = true := fun c member => by
    rw [ink c member]
    rfl
  have outside : (!Text.isBlank first) = false := by
    rw [isBlanks first List.mem_cons_self]
    rfl
  have skipped := isBlanks.trim_left_append rest
  rw [List.cons_append] at skipped ⊢
  exact ⟨Text.take_run inside outside _, by rw [Text.drop_run inside outside, skipped]⟩

theorem ink_and_blanks (text : List Char) :
    ∃ blanks, Text.Blanks blanks ∧
      text = text.takeWhile (fun c => !Text.isBlank c) ++ blanks ++
        Text.trimLeft (text.dropWhile fun c => !Text.isBlank c) ∧
      (Text.trimLeft (text.dropWhile fun c => !Text.isBlank c) ≠ [] → blanks ≠ []) := by
  obtain ⟨blanks, isBlanks, parts⟩ :=
    Text.blanks_before_trim_left (text.dropWhile fun c => !Text.isBlank c)
  refine ⟨blanks, isBlanks, ?_, ?_⟩
  · rw [List.append_assoc, ← parts, List.takeWhile_append_dropWhile]
  · rintro given rfl
    -- The text behind the run would have to open with ink and with a blank.
    rw [List.nil_append] at parts
    rw [← parts] at given
    have stopped := List.head_dropWhile_not (fun c => !Text.isBlank c) given
    have kept := List.dropWhile_eq_self_iff.mp parts.symm (List.length_pos_iff.mpr given)
    rw [← List.head_eq_getElem given] at kept
    simp [kept] at stopped

variable {text field keyword rest : List Char}

theorem three_parts_of_spaced (spaced : Spaced text field keyword rest)
    (fieldInk : ∀ c ∈ field, Text.isBlank c = false)
    (keywordInk : ∀ c ∈ keyword, Text.isBlank c = false) (keywordGiven : keyword ≠ [])
    (inked : ¬Text.Blanks rest) :
    threeParts? text = some (field, keyword, Text.trimLeft rest) := by
  obtain ⟨left, right, leftBlanks, leftGiven, rightBlanks, rightGiven, rfl⟩ := spaced
  obtain ⟨takeField, dropField⟩ := ink_then_blanks fieldInk leftBlanks leftGiven
    (keyword ++ (right ++ rest))
  obtain ⟨takeKeyword, dropKeyword⟩ := ink_then_blanks keywordInk rightBlanks rightGiven rest
  have keywordFirst : Text.trimLeft (keyword ++ (right ++ rest)) = keyword ++ (right ++ rest) := by
    obtain ⟨letter, letters, rfl⟩ := List.exists_cons_of_ne_nil keywordGiven
    exact Text.trim_left_of_ink (keywordInk letter List.mem_cons_self)
  have given : Text.trimLeft rest ≠ [] := by
    unfold Text.trimLeft
    rwa [Ne, List.dropWhile_eq_nil_iff]
  unfold threeParts?
  simp only [List.append_assoc]
  rw [takeField, dropField, keywordFirst, takeKeyword, dropKeyword,
    if_neg (by rwa [List.isEmpty_iff])]

theorem spaced_of_three_parts (found : threeParts? text = some (field, keyword, rest)) :
    Spaced text field keyword rest ∧ rest ≠ [] := by
  unfold threeParts? at found
  dsimp only at found
  split at found
  · cases found
  · rename_i given
    cases found
    rw [List.isEmpty_iff] at given
    obtain ⟨left, leftBlanks, fieldParts, leftGiven⟩ := ink_and_blanks text
    obtain ⟨right, rightBlanks, keywordParts, rightGiven⟩ :=
      ink_and_blanks (Text.trimLeft (text.dropWhile fun c => !Text.isBlank c))
    refine ⟨⟨left, right, leftBlanks, leftGiven ?_, rightBlanks, rightGiven given, ?_⟩, given⟩
    · intro nothing
      rw [nothing] at given
      exact given rfl
    · simp only [List.append_assoc] at fieldParts keywordParts ⊢
      rw [← keywordParts]
      exact fieldParts

end Parts

section Calls

/-- An argument is read when a value can be found in it at all; where the value ends between blanks
makes no difference once it is trimmed. -/
theorem read_argument_iff (argument read : List Char) :
    readArgument argument = some read ↔ ∃ behind value closing, Text.Blanks behind ∧
      Text.Blanks closing ∧ argument = behind ++ value ++ closing ∧ IsValue value ∧
      read = Text.trim value := by
  unfold readArgument
  simp only [Option.ite_none_left_eq_some, Option.some.injEq, Bool.not_eq_true,
    Bool.or_eq_false_iff, List.all_eq_false, decide_eq_true_eq]
  constructor
  · rintro ⟨⟨⟨c, member, proper⟩, oneLine⟩, rfl⟩
    obtain ⟨left, right, leftBlanks, rightBlanks, parts⟩ := Text.blanks_around_trim argument
    by_cases blank : Text.trim argument = []
    · -- Any character that is not a line break may then be the value.
      have blanks : Text.Blanks argument := by
        intro d within
        rw [parts, blank, List.append_nil] at within
        exact (List.mem_append.mp within).elim (leftBlanks d) (rightBlanks d)
      obtain ⟨before, after, rfl⟩ := List.append_of_mem member
      have single : Text.Blanks [c] := fun d within => by
        rw [List.mem_singleton.mp within]
        exact blanks c member
      refine ⟨before, [c], after, fun d within => blanks d (by simp [within]),
        fun d within => blanks d (by simp [within]), by simp, ⟨List.cons_ne_nil _ _, ?_⟩, ?_⟩
      · rwa [List.mem_singleton, eq_comm]
      · rw [blank, single.trim_eq_nil]
    · exact ⟨left, Text.trim argument, right, leftBlanks, rightBlanks, parts,
        ⟨blank, by simpa using oneLine⟩, (Text.trim_trim argument).symm⟩
  · rintro ⟨behind, value, closing, behindBlanks, closingBlanks, rfl, isValue, rfl⟩
    rw [behindBlanks.trim_between closingBlanks]
    obtain ⟨c, member⟩ := List.exists_mem_of_ne_nil value isValue.given
    refine ⟨⟨⟨c, by simp [member], ?_⟩, ?_⟩, rfl⟩
    · rintro rfl
      exact isValue.oneLine member
    · rw [List.contains_eq_mem, decide_eq_false_iff_not]
      exact fun inner => isValue.oneLine (Text.mem_of_mem_trim inner)

theorem field_ends {before : List Char} (blanks : Text.Blanks before) (rest : List Char) :
    ∃ next others, before ++ ',' :: rest = next :: others ∧
      (Text.isWord next || next == '.') = false := by
  cases before with
  | nil => exact ⟨',', rest, rfl, by decide⟩
  | cons blank others =>
      have isBlank := blanks blank List.mem_cons_self
      refine ⟨blank, others ++ ',' :: rest, rfl, ?_⟩
      rw [Text.blank_not_word isBlank, Bool.false_or, beq_eq_false_iff_ne]
      rintro rfl
      exact absurd isBlank (by decide)

variable {text field argument : List Char} {name : String}

theorem read_call_of_parts {opening before : List Char} (openingBlanks : Text.Blanks opening)
    (beforeBlanks : Text.Blanks before) (path : Identifier.Path Identifier.isStart field)
    (parts : text = name.toList ++ '(' ::
      (opening ++ field ++ before ++ ',' :: (argument ++ [')']))) :
    readCall name text = (readArgument argument).map fun value => ⟨field, some value⟩ := by
  obtain ⟨next, others, follows, ends⟩ := field_ends beforeBlanks argument
  have chars := path.chars fun _ => Identifier.start_is_word
  have whole : text =
      (name.toList ++ ['(']) ++ ((opening ++ (field ++ next :: others)) ++ [')']) := by
    rw [parts, ← follows]
    simp
  have inside : Text.trimLeft (opening ++ (field ++ next :: others)) = field ++ next :: others := by
    rw [openingBlanks.trim_left_append]
    obtain ⟨first, letters, rfl⟩ := List.exists_cons_of_ne_nil path.ne_nil
    exact Text.trim_left_of_ink (path.ink (fun _ => Identifier.start_is_word) first
      List.mem_cons_self)
  have isPath : Identifier.isPathFrom Identifier.isStart field = true :=
    (Identifier.is_path_from_iff (by decide) field).mpr path
  have rest : Text.trimLeft (next :: others) = ',' :: argument := by
    rw [← follows, beforeBlanks.trim_left_append]
    exact Text.trim_left_of_ink (by decide)
  rw [whole, readCall, Text.drop_prefix_append]
  simp only [Option.bind_eq_bind, Option.bind_some, List.getLast?_concat, List.dropLast_concat,
    inside, Text.take_run chars ends, Text.drop_run chars ends, isPath, rest]
  cases readArgument argument <;> rfl

theorem read_call_of_called (called : Called text name.toList field argument)
    (path : Identifier.Path Identifier.isStart field) (isValue : IsValue argument) :
    readCall name text = some ⟨field, some (Text.trim argument)⟩ := by
  obtain ⟨opening, before, behind, closing, openingBlanks, beforeBlanks, behindBlanks,
    closingBlanks, parts⟩ := called
  have read := (read_argument_iff (behind ++ argument ++ closing) _).mpr
    ⟨behind, argument, closing, behindBlanks, closingBlanks, rfl, isValue, rfl⟩
  rw [read_call_of_parts openingBlanks beforeBlanks path parts, read]
  rfl

theorem called_of_read_call {reading : Reading} (read : readCall name text = some reading) :
    ∃ value, Called text name.toList reading.field value ∧
      Identifier.Path Identifier.isStart reading.field ∧ IsValue value ∧
      reading.rawValue = some (Text.trim value) := by
  unfold readCall at read
  simp only [Option.bind_eq_bind, Option.bind_eq_some_iff] at read
  obtain ⟨arguments, opened, read⟩ := read
  split at read
  · cases read
  · rename_i closed
    obtain ⟨inner, rfl⟩ := List.getLast?_eq_some_iff.mp (not_ne_iff.mp closed)
    rw [List.dropLast_concat] at read
    split at read
    · cases read
    · rename_i isPath
      split at read
      · rename_i argument comma
        obtain ⟨value, found, same⟩ := Option.bind_eq_some_iff.mp read
        cases same
        obtain ⟨opening, openingBlanks, openingParts⟩ := Text.blanks_before_trim_left inner
        obtain ⟨before, beforeBlanks, beforeParts⟩ :=
          Text.blanks_before_trim_left ((Text.trimLeft inner).dropWhile
            fun c => Text.isWord c || c == '.')
        obtain ⟨behind, value, closing, behindBlanks, closingBlanks, rfl, isValue, rfl⟩ :=
          (read_argument_iff argument value).mp found
        have fieldParts := List.takeWhile_append_dropWhile (l := Text.trimLeft inner)
          (p := fun c => Text.isWord c || c == '.')
        rw [beforeParts, comma] at fieldParts
        rw [← fieldParts] at openingParts
        refine ⟨value, ⟨opening, before, behind, closing, openingBlanks, beforeBlanks,
          behindBlanks, closingBlanks, ?_⟩, Identifier.path_of_is_path_from (by simpa using isPath),
          isValue, rfl⟩
        rw [Text.eq_append_of_dropped opened]
        simpa using congrArg (· ++ [')']) openingParts
      · cases read

end Calls

end Clause

end QueryOptions
