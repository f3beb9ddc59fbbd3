import QueryOptions.Proofs.Grammar.Forms
import QueryOptions.Proofs.Request.Admission

/-!
Lists of sorts and of relations as they are written. A list of sorts may be written in many ways,
with blanks around its parts, the directions in any letter case and blank entries in between, and is
read back from each of them. What a list is read as is a normal form: written out again and read
again it is the same.
-/

namespace QueryOptions

namespace Text

theorem words_behind_blank {c : Char} (blank : isBlank c = true) (text : List Char) :
    words (c :: text) = words text := by
  conv_lhs => unfold words
  exact if_pos blank

theorem Blanks.words_append {left : List Char} (blanks : Blanks left) (text : List Char) :
    words (left ++ text) = words text := by
  induction left with
  | nil => rfl
  | cons c left induction =>
      rw [List.cons_append, words_behind_blank (blanks c List.mem_cons_self)]
      exact induction fun d member => blanks d (List.mem_cons_of_mem c member)

theorem words_of_ink {word behind : List Char} (given : word ≠ [])
    (ink : ∀ c ∈ word, isBlank c = false)
    (ends : ∀ c rest, behind = c :: rest → isBlank c = true) :
    words (word ++ behind) = word :: words behind := by
  induction word with
  | nil => exact absurd rfl given
  | cons c word induction =>
      have isInk : ¬isBlank c = true := by simp [ink c List.mem_cons_self]
      conv_lhs => unfold words
      refine (if_neg isInk).trans ?_
      cases word with
      | nil =>
          cases behind with
          | nil => rfl
          | cons next rest => exact if_pos (ends next rest rfl)
      | cons next word =>
          have nextInk : ¬isBlank next = true := by simp [ink next (by simp)]
          have rest : words ((next :: word).append behind) = (next :: word) :: words behind :=
            induction (List.cons_ne_nil next word) fun d member =>
              ink d (List.mem_cons_of_mem c member)
          refine (if_neg nextInk).trans ?_
          rw [rest]

theorem words_of_two {before first gap second behind : List Char} (beforeBlanks : Blanks before)
    (firstGiven : first ≠ []) (firstInk : ∀ c ∈ first, isBlank c = false) (gapBlanks : Blanks gap)
    (gapGiven : gap ≠ []) (secondGiven : second ≠ []) (secondInk : ∀ c ∈ second, isBlank c = false)
    (behindBlanks : Blanks behind) :
    words (before ++ first ++ gap ++ second ++ behind) = [first, second] := by
  have gapOpens : ∀ c rest, gap ++ (second ++ behind) = c :: rest → isBlank c = true := by
    intro c rest parts
    obtain ⟨blank, others, rfl⟩ := List.exists_cons_of_ne_nil gapGiven
    cases parts
    exact gapBlanks c List.mem_cons_self
  have behindOpens : ∀ c rest, behind = c :: rest → isBlank c = true := by
    rintro c rest rfl
    exact behindBlanks c List.mem_cons_self
  have nothing : words behind = [] := words_of_blank (List.all_eq_true.mpr behindBlanks)
  simp only [List.append_assoc]
  rw [beforeBlanks.words_append, words_of_ink firstGiven firstInk gapOpens,
    gapBlanks.words_append, words_of_ink secondGiven secondInk behindOpens, nothing]

theorem comma_not_blank {text : List Char} (blanks : Blanks text) : ',' ∉ text := fun member =>
  absurd (blanks ',' member) (by decide)

end Text

namespace Identifier

variable {name : String} (path : isPath name = true)

include path

theorem path_ink : ∀ c ∈ name.toList, Text.isBlank c = false :=
  (path_of_is_path_from path).ink fun _ => start_is_word

theorem path_given : name.toList ≠ [] := (path_of_is_path_from path).ne_nil

theorem comma_not_in_path : ',' ∉ name.toList := fun member =>
  absurd ((path_of_is_path_from path).chars (fun _ => start_is_word) ',' member) (by decide)

end Identifier

/-- An empty text may as well be split: it has one entry, in which there is nothing. -/
theorem read_of_entries {ρ : Type} {readAll : List (List Char) → ρ} {nothing : ρ}
    (blank : readAll [[]] = nothing) (text : String) :
    (if text.isEmpty then nothing else readAll (Text.splitAtChar ',' text.toList)) =
      readAll (Text.splitAtChar ',' text.toList) := by
  split
  · rename_i empty
    rw [String.isEmpty_iff.mp empty]
    exact blank.symm
  · rfl

def Direction.Spells (direction : Direction) (word : List Char) : Prop :=
  Clause.lowerAscii word = Clause.lowerAscii direction.keyword.toList

instance (direction : Direction) (word : List Char) : Decidable (direction.Spells word) :=
  inferInstanceAs (Decidable (_ = _))

namespace Direction.Spells

variable {direction : Direction} {word : List Char}

theorem given (spelled : direction.Spells word) : word ≠ [] := by
  rintro rfl
  cases direction <;> cases spelled

theorem ink (spelled : direction.Spells word) : ∀ c ∈ word, Text.isBlank c = false :=
  Clause.ink_of_spelled (by cases direction <;> decide) spelled

theorem comma_not_in_word (spelled : direction.Spells word) : ',' ∉ word := by
  intro member
  have lower : ',' ∈ Clause.lowerAscii direction.keyword.toList := by
    rw [← spelled]
    exact List.mem_map_of_mem member
  cases direction <;> exact absurd lower (by decide)

/-- The letters of the keywords are the only capitals whose lower case they have. -/
theorem upper_of_lower {c letter : Char} (isLetter : letter ∈ "ASCDE".toList)
    (lower : c.toLower = letter.toLower) : SortKey.upperLetter c = letter := by
  by_cases upper : 65 ≤ c.toNat ∧ c.toNat < 91
  · have table : ∀ code < 91, 65 ≤ code → ("ASCDE".toList.all fun letter =>
        (Char.ofNat code).toLower = letter.toLower →
          SortKey.upperLetter (Char.ofNat code) = letter) = true := by decide
    have found := List.all_eq_true.mp (table c.toNat upper.2 upper.1) letter isLetter
    rw [Char.ofNat_toNat] at found
    exact of_decide_eq_true found lower
  · have same : c.toLower = c := dif_neg fun range => upper ⟨range.1, Nat.lt_succ_of_le range.2⟩
    have table : ("ASCDE".toList.all fun letter =>
        SortKey.upperLetter letter.toLower = letter) = true := by decide
    rw [← same, lower]
    exact of_decide_eq_true (List.all_eq_true.mp table letter isLetter)

theorem upper (spelled : direction.Spells word) :
    word.map SortKey.upperLetter = direction.keyword.toList := by
  have letters : ∀ letter ∈ direction.keyword.toList, letter ∈ "ASCDE".toList := by
    have table : (direction.keyword.toList.all fun letter => letter ∈ "ASCDE".toList) = true := by
      cases direction <;> decide
    exact fun letter member => of_decide_eq_true (List.all_eq_true.mp table letter member)
  unfold Direction.Spells Clause.lowerAscii at spelled
  generalize direction.keyword.toList = keyword at letters spelled
  induction keyword generalizing word with
  | nil => rw [List.map_eq_nil_iff.mp spelled, List.map_nil]
  | cons letter keyword induction =>
      obtain ⟨c, rest, rfl, lower, spelledRest⟩ := List.map_eq_cons_iff.mp spelled
      rw [List.map_cons, upper_of_lower (letters letter List.mem_cons_self) lower,
        induction (fun other member => letters other (List.mem_cons_of_mem letter member))
          spelledRest]

end Direction.Spells

namespace SortKey

/-- Entries that write sorts, in order: each sort as a path and a direction with blanks between and
around them, and any number of blank entries. -/
inductive Writes : (entries : List (List Char)) → (sorts : List SortKey) → Prop where
  | done : Writes [] []
  | blank {entry : List Char} {entries : List (List Char)} {sorts : List SortKey}
      (blanks : Text.Blanks entry) (rest : Writes entries sorts) : Writes (entry :: entries) sorts
  | sort {before gap word behind : List Char} {sort : SortKey} {entries : List (List Char)}
      {sorts : List SortKey} (path : Identifier.isPath sort.field = true)
      (beforeBlanks : Text.Blanks before) (gapBlanks : Text.Blanks gap) (gapGiven : gap ≠ [])
      (spelled : sort.direction.Spells word) (behindBlanks : Text.Blanks behind)
      (rest : Writes entries sorts) :
      Writes ((before ++ sort.field.toList ++ gap ++ word ++ behind) :: entries) (sort :: sorts)

def written (sort : SortKey) : String := sort.field ++ " " ++ sort.direction.keyword

theorem writes_written {sorts : List SortKey}
    (paths : ∀ sort ∈ sorts, Identifier.isPath sort.field = true) :
    Writes (sorts.map fun sort => sort.written.toList) sorts := by
  induction sorts with
  | nil => exact .done
  | cons sort sorts induction =>
      have rest := induction fun other member => paths other (List.mem_cons_of_mem sort member)
      have nothing : Text.Blanks [] := by decide
      have single : Text.Blanks [' '] := by decide
      have parts : sort.written.toList =
          [] ++ sort.field.toList ++ [' '] ++ sort.direction.keyword.toList ++ [] := by
        simp [written]
      rw [List.map_cons, parts]
      exact .sort (paths sort List.mem_cons_self) nothing single (by decide) rfl nothing rest

theorem Writes.without_comma {entries : List (List Char)} {sorts : List SortKey}
    (writes : Writes entries sorts) : ∀ entry ∈ entries, ',' ∉ entry := by
  induction writes with
  | done => simp
  | blank blanks _ induction =>
      intro entry member
      rcases List.mem_cons.mp member with rfl | later
      · exact Text.comma_not_blank blanks
      · exact induction entry later
  | sort path beforeBlanks gapBlanks _ spelled behindBlanks _ induction =>
      intro entry member
      rcases List.mem_cons.mp member with rfl | later
      · simp [Text.comma_not_blank beforeBlanks, Identifier.comma_not_in_path path,
          Text.comma_not_blank gapBlanks, spelled.comma_not_in_word,
          Text.comma_not_blank behindBlanks]
      · exact induction entry later

theorem read_text (access : Access) (strictness : Strictness) (text : String) :
    read access strictness (.text text) =
      readEntries access strictness (Text.splitAtChar ',' text.toList) :=
  read_of_entries rfl text

theorem read_entries_written {access : Access} {entries : List (List Char)} {sorts : List SortKey}
    (writes : Writes entries sorts) (allowed : ∀ sort ∈ sorts, access.allowsSort sort.field = true)
    (strictness : Strictness) : readEntries access strictness entries = .ok sorts := by
  induction writes with
  | done => rfl
  | blank blanks _ induction =>
      rw [readEntries, if_pos (List.all_eq_true.mpr blanks), induction allowed]
  | @sort before gap word behind sort entries sorts path beforeBlanks gapBlanks gapGiven spelled
      behindBlanks _ induction =>
      have rest := induction fun other member => allowed other (List.mem_cons_of_mem sort member)
      have words := Text.words_of_two beforeBlanks (Identifier.path_given path)
        (Identifier.path_ink path) gapBlanks gapGiven spelled.given spelled.ink behindBlanks
      have found : ofWords? (Text.words
          (before ++ sort.field.toList ++ gap ++ word ++ behind)) = some sort :=
        (of_words_iff _ sort).mpr ⟨word, words, path, spelled.upper⟩
      have inked : ¬(before ++ sort.field.toList ++ gap ++ word ++ behind).all Text.isBlank =
          true := by
        intro blank
        rw [words_of_blank blank] at words
        cases words
      have taken : readEntry access (before ++ sort.field.toList ++ gap ++ word ++ behind) =
          .ok sort := by
        unfold readEntry Access.requireSort
        rw [found]
        simp only [allowed sort List.mem_cons_self, if_true]
        rfl
      rw [readEntries, if_neg inked, taken, rest]
      rfl

theorem read_written {access : Access} {entries : List (List Char)} {sorts : List SortKey}
    (writes : Writes entries sorts) (allowed : ∀ sort ∈ sorts, access.allowsSort sort.field = true)
    (strictness : Strictness) :
    read access strictness (.text (String.ofList ([','].intercalate entries))) = .ok sorts := by
  rw [read_text, String.toList_ofList]
  by_cases given : entries = []
  · subst given
    cases writes
    rfl
  · rw [Text.split_at_char_intercalate given writes.without_comma]
    exact read_entries_written writes allowed strictness

theorem read_lenient (access : Access) (text : String) :
    ∃ sorts, read access .lenient (.text text) = .ok sorts ∧
      ∀ sort ∈ sorts, Identifier.isPath sort.field = true ∧ access.sortable.Opens sort.field := by
  refine ⟨_, (read_text access .lenient text).trans (read_entries_lenient access _), ?_⟩
  intro sort member
  obtain ⟨entry, _, found⟩ := List.mem_filterMap.mp member
  obtain ⟨_, _, path, _, opened⟩ := (admits_sort_iff access entry sort).mpr found
  exact ⟨path, opened⟩

end SortKey

namespace Expansion

theorem read_entries_written {access : Access} {relations accepted : List String}
    (admitted : ∀ relation ∈ relations, access.AdmitsRelation relation)
    (fresh : (accepted ++ relations).Nodup) (strictness : Strictness) :
    readEntries access strictness accepted (relations.map String.toList) =
      .ok (accepted ++ relations) := by
  induction relations generalizing accepted with
  | nil => rw [List.append_nil, List.map_nil, readEntries]
  | cons relation relations induction =>
      have isAdmitted := admitted relation List.mem_cons_self
      have trimmed : String.ofList (Text.trim relation.toList) = relation := by
        rw [(Text.IsTrimmed.of_ink (Identifier.path_given isAdmitted.1)
          (Identifier.path_ink isAdmitted.1)).trim, String.ofList_toList]
      have unknown : relation ∉ accepted := fun known =>
        (List.nodup_append.mp fresh).2.2 relation known relation List.mem_cons_self rfl
      have given : relation.isEmpty = false := by
        rw [Bool.eq_false_iff]
        intro empty
        exact Identifier.path_given isAdmitted.1 (by rw [String.isEmpty_iff.mp empty]; rfl)
      have taken : readRelation access relation = .ok relation := by
        refine ok_of_to_option ?_
        rw [read_relation_to_option, if_pos ((accepts_iff_admits access relation).mpr isAdmitted)]
      have rest : readEntries access strictness (accepted ++ [relation])
          (relations.map String.toList) = .ok (accepted ++ [relation] ++ relations) :=
        induction (fun other member => admitted other (List.mem_cons_of_mem relation member))
          (by rwa [List.append_assoc])
      have passed : ¬(relation.isEmpty || accepted.contains relation) = true := by
        simp [given, unknown]
      rw [List.map_cons, readEntries, trimmed, if_neg passed, taken]
      rw [List.append_assoc] at rest
      exact rest

theorem read_text (access : Access) (strictness : Strictness) (text : String) :
    read access strictness (.text text) =
      readEntries access strictness [] (Text.splitAtChar ',' text.toList) :=
  read_of_entries rfl text

theorem read_written {access : Access} {relations : List String}
    (admitted : ∀ relation ∈ relations, access.AdmitsRelation relation) (fresh : relations.Nodup)
    (strictness : Strictness) :
    read access strictness (.text (",".intercalate relations)) = .ok relations := by
  rw [read_text, String.toList_intercalate]
  by_cases given : relations = []
  · subst given
    rfl
  · have free : ∀ entry ∈ relations.map String.toList, ',' ∉ entry := by
      intro entry member
      obtain ⟨relation, known, rfl⟩ := List.mem_map.mp member
      exact Identifier.comma_not_in_path (admitted relation known).1
    have pieces := Text.split_at_char_intercalate (by simpa using given) free
    have comma : ",".toList = [','] := rfl
    have fromNothing : ([] ++ relations).Nodup := fresh
    rw [comma, pieces, read_entries_written admitted fromNothing, List.nil_append]

end Expansion

/-- Lists of sorts and of relations are read back from what writes them, and what they are read as
is a normal form. A list of sorts is read from every text that writes it. What lenient reading makes
of any text are paths that are open to sorting, and different relations that are open to expansion,
each at its first place among the entries; written with commas they are read as the same. -/
theorem Access.lists_are_normal_forms (access : Access) :
    (∀ strictness entries sorts, SortKey.Writes entries sorts →
      (∀ sort ∈ sorts, access.allowsSort sort.field = true) →
      SortKey.read access strictness (.text (String.ofList ([','].intercalate entries))) =
        .ok sorts) ∧
    (∀ text, ∃ sorts, SortKey.read access .lenient (.text text) = .ok sorts ∧
      (∀ sort ∈ sorts, Identifier.isPath sort.field = true ∧ access.sortable.Opens sort.field) ∧
      ∀ strictness, SortKey.read access strictness
        (.text (",".intercalate (sorts.map SortKey.written))) = .ok sorts) ∧
    ∀ text, ∃ relations, Expansion.read access .lenient (.text text) = .ok relations ∧
      relations.Nodup ∧
      (∀ relation ∈ relations, Identifier.isPath relation = true ∧ '.' ∉ relation.toList ∧
        access.expandable.Opens relation) ∧
      relations = ((Expansion.names (.text text)).filter fun relation =>
        access.AdmitsRelation relation).eraseDups ∧
      ∀ strictness, Expansion.read access strictness (.text (",".intercalate relations)) =
        .ok relations := by
  refine ⟨fun strictness entries sorts writes allowed =>
    SortKey.read_written writes allowed strictness, ?_, ?_⟩
  · intro text
    obtain ⟨sorts, read, taken⟩ := SortKey.read_lenient access text
    refine ⟨sorts, read, taken, fun strictness => ?_⟩
    have writes := SortKey.writes_written fun sort member => (taken sort member).1
    have allowed : ∀ sort ∈ sorts, access.allowsSort sort.field = true := fun sort member =>
      (admits_iff_opens access.sortable sort.field).mpr (taken sort member).2
    have letters : (",".intercalate (sorts.map SortKey.written)).toList =
        [','].intercalate (sorts.map fun sort => sort.written.toList) := by
      rw [String.toList_intercalate, List.map_map]
      rfl
    have again := SortKey.read_written writes allowed strictness
    rwa [← letters, String.ofList_toList] at again
  · intro text
    have admitted : ∀ relation ∈ ((Expansion.names (.text text)).filter fun relation =>
        access.AdmitsRelation relation).eraseDups, access.AdmitsRelation relation := by
      intro relation member
      rw [List.mem_eraseDups, List.mem_filter, decide_eq_true_iff] at member
      exact member.2
    exact ⟨_, Expansion.read_lenient access (.text text), erase_dups_nodup _, admitted, rfl,
      Expansion.read_written admitted (erase_dups_nodup _)⟩

/-- Two sorts between blank entries, the directions in mixed case and the blanks not all alike. -/
theorem Access.lists_are_normal_forms_mixed :
    let entries := [['\u00a0'], ['\t'] ++ "name".toList ++ ['\u2003'] ++ "aSc".toList ++ [], [],
      [] ++ "ort.Straße".toList ++ [' ', ' '] ++ "DESC".toList ++ [' ']]
    let sorts := [SortKey.mk "name" .ascending, SortKey.mk "ort.Straße" .descending]
    let access : Access := { sortable := ["name", "ort.Straße"] }
    SortKey.Writes entries sorts ∧ (∀ sort ∈ sorts, access.allowsSort sort.field = true) ∧
      SortKey.read access .strict (.text (String.ofList ([','].intercalate entries))) =
        .ok sorts := by
  intro entries sorts access
  have path : Identifier.isPath "ort.Straße" = true := by decide +kernel
  have last := @SortKey.Writes.sort [] [' ', ' '] "DESC".toList [' '] ⟨"ort.Straße", .descending⟩
    [] [] path (by decide) (by decide) (by decide) (by decide) (by decide) .done
  have both := @SortKey.Writes.sort ['\t'] ['\u2003'] "aSc".toList [] ⟨"name", .ascending⟩ _ _
    (by decide) (by decide) (by decide) (by decide) (by decide) (by decide)
    (@SortKey.Writes.blank [] _ _ (by decide) last)
  have writes : SortKey.Writes entries sorts := .blank (by decide) both
  have allowed : ∀ sort ∈ sorts, access.allowsSort sort.field = true := by decide
  have read := (Access.lists_are_normal_forms access).1 .strict entries sorts writes allowed
  exact ⟨writes, allowed, read⟩

end QueryOptions
