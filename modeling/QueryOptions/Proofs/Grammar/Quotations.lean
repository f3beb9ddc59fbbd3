import QueryOptions.Proofs.Grammar.Rendering

/-!
Texts between quotes in a filter. The separator is looked for before any quotes are, so no clause
has a literal with the separator in it, and a quoted text is read back exactly when it has none. A
text that has the separator is cut there: its first part still makes a clause, and each part behind
makes one more if it reads as a clause by itself.
-/

namespace QueryOptions

theorem Text.trim_part (text : List Char) : trim text <:+: text := by
  obtain ⟨left, right, _, _, parts⟩ := blanks_around_trim text
  exact ⟨left, right, parts.symm⟩

theorem Literal.text_part {raw text : String} (read : ofRaw raw = .ok (.text text)) :
    text.toList <:+: raw.toList := by
  unfold ofRaw at read
  split at read
  · rename_i inner quoted
    cases read
    rw [String.toList_ofList]
    unfold unquoted? at quoted
    split at quoted
    · rename_i opening rest parts
      rw [parts]
      split at quoted
      · cases quoted
        exact (List.dropLast_prefix rest).isInfix.trans (List.suffix_cons opening rest).isInfix
      · cases quoted
    · cases quoted
  · split at read
    · cases read
    · split at read
      · cases read
      · split at read
        · cases read
        · split at read
          · rename_i numeral _
            unfold PlainNumeral.value at read
            split at read
            · split at read <;> cases read
            · cases read
          · cases read
            exact List.infix_rfl

theorem Clause.Derives.value_part {text field value : List Char} {operator : Operator}
    (derived : Derives text operator field (some value)) : value <:+: text := by
  cases derived with
  | comparison kind path spaced isValue =>
      obtain ⟨left, right, _, _, _, _, rfl⟩ := spaced
      exact ⟨_, [], List.append_nil _⟩
  | call kind path called isValue =>
      obtain ⟨opening, before, behind, closing, _, _, _, _, rfl⟩ := called
      refine ⟨kind.keyword.toList ++ '(' :: (opening ++ field ++ before ++ ',' :: behind),
        closing ++ [')'], ?_⟩
      simp

theorem Grammar.raw_value_part {fragment : List Char} {position : Int} {clause : Clause}
    {raw : String} (read : standard.readClause fragment position = some clause)
    (given : clause.rawValue = some raw) : raw.toList <:+: fragment := by
  obtain ⟨reading, readable, whole⟩ := operator_of_read read
  obtain ⟨value?, derived, found⟩ := Clause.derives_of_read readable
  rw [whole, found] at given
  cases value? with
  | none => cases given
  | some value =>
      cases given
      rw [String.toList_ofList]
      exact (Text.trim_part value).trans (derived.value_part.trans (Text.trim_part fragment))

namespace Filter

open Agreement (separator)

theorem fragment_free {text fragment : String} (member : fragment ∈ fragments text) :
    ¬separator <:+: fragment.toList := by
  obtain ⟨piece, known, rfl⟩ := List.mem_map.mp member
  have free := (Text.Splits.of_split ' ' "and ".toList text.toList).free piece known
  rw [String.toList_ofList, ← Text.occurs_iff_infix, Bool.not_eq_true]
  exact free

theorem literal_free {strictness : Strictness} {value : Value} {clauses : List Clause}
    (read : Filter.read .standard strictness value = .ok clauses) {clause : Clause}
    (member : clause ∈ clauses) {raw text : String} (given : clause.rawValue = some raw)
    (stands : Literal.ofRaw raw = .ok (.text text)) : ¬separator <:+: text.toList := by
  rw [read_eq_read_fragments] at read
  obtain ⟨index, fragment, known, found⟩ := (mem_read_fragments read clause).mp member
  have part : text.toList <:+: fragment.toList :=
    (Literal.text_part stands).trans (Grammar.raw_value_part found given)
  intro occurs
  have listed := List.mem_of_getElem? known
  cases value with
  | text whole =>
      change fragment ∈ if whole.isEmpty then [] else fragments whole at listed
      split at listed
      · cases listed
      · exact fragment_free listed (occurs.trans part)
  | _ => cases listed

def isClause (fragment : String) : Bool :=
  (Grammar.standard.readClause fragment.toList 0).isSome

theorem is_clause_anywhere (fragment : String) (position : Int) :
    (Grammar.standard.readClause fragment.toList position).isSome = isClause fragment := by
  rw [isClause, Bool.eq_iff_iff, Option.isSome_iff_exists, Option.isSome_iff_exists,
    Grammar.is_read_iff, Grammar.is_read_iff]

theorem read_fragments_count (position : Int) (fragments : List String) :
    ∃ clauses, readFragments .standard .lenient position fragments = .ok clauses ∧
      clauses.length = fragments.countP isClause := by
  induction fragments generalizing position with
  | nil => exact ⟨[], rfl, rfl⟩
  | cons fragment fragments induction =>
      obtain ⟨clauses, read, counted⟩ := induction (position + 1)
      rw [read_fragments_lenient, read, List.countP_cons, ← is_clause_anywhere fragment position,
        ← counted]
      refine ⟨_, rfl, ?_⟩
      cases Grammar.standard.readClause fragment.toList position <;> simp

end Filter

namespace Rendering

open Agreement (separator)

/-- A comparison with a line of text between two quotes of a kind that it does not have. An equality
or inequality with the word `null` would be a null check. -/
structure Quotation where
  field : String
  kind : Comparison
  quote : Char
  text : String
  isPath : Identifier.isPath field = true
  isQuote : quote = '\'' ∨ quote = '"'
  oneLine : '\n' ∉ text.toList
  unquoted : quote ∉ text.toList
  noNull : kind = .eq ∨ kind = .ne → text.toList.map Char.toLower ≠ "null".toList

namespace Quotation

variable (quotation : Quotation)

def item : Item :=
  .comparison quotation.field quotation.kind (.quoted quotation.quote quotation.text)

def HasSeparator : Prop := " and ".toList <:+: quotation.text.toList

def cutOff : List String := (Filter.fragments quotation.item.written).tail

theorem writable (free : ¬quotation.HasSeparator) : quotation.item.IsWritable where
  path := quotation.isPath
  term := by
    rintro _ ⟨⟩
    refine ⟨quotation.isQuote, quotation.oneLine, ?_⟩
    rwa [← Bool.not_eq_true, Text.occurs_iff_infix]
  noNull := by
    rintro isEquality _ ⟨⟩
    exact quotation.noNull (isEquality.imp Operator.comparison.inj Operator.comparison.inj)

def opening : List Char :=
  quotation.field.toList ++ ' ' :: (quotation.kind.keyword.toList ++ [' '])

theorem written_parts :
    quotation.item.written.toList =
      quotation.opening ++ quotation.quote :: (quotation.text.toList ++ [quotation.quote]) := by
  simp [item, Item.written, Term.written, opening]

theorem quote_ink : Text.isBlank quotation.quote = false := by
  rcases quotation.isQuote with same | same <;> rw [same] <;> rfl

theorem quote_unused : quotation.quote ∉ ' ' :: "and ".toList := by
  rcases quotation.isQuote with same | same <;> rw [same] <;> decide

theorem path : Identifier.Path Identifier.isStart quotation.field.toList :=
  Identifier.path_of_is_path_from quotation.isPath

theorem field_ink : ∀ c ∈ quotation.field.toList, Text.isBlank c = false :=
  quotation.path.ink fun _ => Identifier.start_is_word

theorem opening_free : Text.occursIn separator quotation.opening = false := by
  have inked : ' ' ∉ quotation.field.toList := fun member =>
    absurd (quotation.field_ink ' ' member) (by decide)
  rw [opening, separator, Text.occurs_behind_ink _ inked]
  cases quotation.kind <;> decide

theorem fragments_written :
    ∃ piece, piece <+: quotation.text.toList ++ [quotation.quote] ∧
      Filter.fragments quotation.item.written =
        String.ofList (quotation.opening ++ quotation.quote :: piece) :: quotation.cutOff := by
  obtain ⟨pieces, splits⟩ := Text.Splits.exists_pieces ' ' "and ".toList
    (quotation.text.toList ++ [quotation.quote])
  obtain ⟨piece, behind, rfl⟩ := splits.given
  -- The opening has no separator in it, and none reaches from it across the quote.
  have alone : Text.Splits ' ' "and ".toList quotation.opening ([] ++ [quotation.opening]) :=
    .alone quotation.opening_free
  have joined := alone.across quotation.quote_unused splits
  have whole : Filter.fragments quotation.item.written =
      String.ofList (quotation.opening ++ quotation.quote :: piece) ::
        behind.map String.ofList := by
    rw [Filter.fragments, written_parts, joined.eq]
    rfl
  refine ⟨piece, splits.first_opens piece rfl, ?_⟩
  rw [cutOff, whole]
  rfl

/-- What the first fragment holds of the text makes a value, even without the closing quote. -/
theorem opening_is_clause {piece : List Char} (oneLine : '\n' ∉ piece) :
    Filter.isClause (String.ofList (quotation.opening ++ quotation.quote :: piece)) = true := by
  have kept : Text.trim (quotation.opening ++ quotation.quote :: piece) =
      quotation.opening ++ quotation.quote :: Text.trimRight piece := by
    obtain ⟨first, letters, field⟩ := List.exists_cons_of_ne_nil quotation.path.ne_nil
    have ink := quotation.field_ink first (field ▸ List.mem_cons_self)
    rw [Text.trim, opening, field, List.cons_append, List.cons_append, Text.trim_left_of_ink ink,
      ← List.cons_append, ← List.cons_append, Text.trim_right_behind_ink quotation.quote_ink]
  have value : Clause.IsValue (quotation.quote :: Text.trimRight piece) := by
    obtain ⟨right, _, parts⟩ := Text.blanks_behind_trim_right piece
    refine ⟨List.cons_ne_nil _ _, fun member => ?_⟩
    rcases List.mem_cons.mp member with same | inner
    · have ink := quotation.quote_ink
      rw [← same] at ink
      cases ink
    · rw [parts] at oneLine
      exact oneLine (List.mem_append_left right inner)
  have spaced : Clause.Spaced (quotation.opening ++ quotation.quote :: Text.trimRight piece)
      quotation.field.toList quotation.kind.keyword.toList
      (quotation.quote :: Text.trimRight piece) := by
    refine ⟨[' '], [' '], by decide, by decide, by decide, by decide, ?_⟩
    simp [opening]
  rw [Filter.isClause, Option.isSome_iff_exists, Grammar.is_read_iff, String.toList_ofList, kept]
  exact ⟨_, _, _, .comparison quotation.kind quotation.path spaced value⟩

end Quotation

theorem filter_cons_cons (item next : Item) (items : List Item) :
    (filter (item :: next :: items)).toList =
      item.written.toList ++ (separator ++ (filter (next :: items)).toList) := by
  unfold filter
  rw [String.toList_intercalate, String.toList_intercalate]
  simp only [List.map_cons]
  rw [List.intercalate_cons_cons, List.append_assoc]
  rfl

section Conjunction

variable (quotation : Quotation) (quotations : List Quotation)

/-- A conjunction of quotations comes apart into the fragments of each. The induction is on the
quotations behind the first one; no separator reaches across a closing quote. -/
theorem splits_of_quotations :
    Text.Splits ' ' "and ".toList (filter ((quotation :: quotations).map Quotation.item)).toList
      ((quotation :: quotations).flatMap fun quotation =>
        Text.splitAtText ' ' "and ".toList quotation.item.written.toList) := by
  induction quotations generalizing quotation with
  | nil =>
      have alone : filter ([quotation].map Quotation.item) = quotation.item.written :=
        String.intercalate_singleton
      rw [alone, List.flatMap_singleton]
      exact .of_split _ _ _
  | cons next quotations induction =>
      have first := Text.Splits.of_split ' ' "and ".toList quotation.item.written.toList
      have closed : quotation.item.written.toList =
          quotation.opening ++ quotation.quote :: quotation.text.toList ++ [quotation.quote] := by
        rw [quotation.written_parts, List.append_assoc, List.cons_append]
      have joined := filter_cons_cons quotation.item next.item (quotations.map Quotation.item)
      rw [closed, List.append_assoc, List.singleton_append] at joined
      rw [List.map_cons, List.map_cons, joined, List.flatMap_cons]
      rw [closed] at first ⊢
      exact first.append_separated quotation.quote_unused (induction next)

theorem fragments_of_quotations :
    Filter.fragments (filter ((quotation :: quotations).map Quotation.item)) =
      (quotation :: quotations).flatMap fun quotation =>
        Filter.fragments quotation.item.written := by
  unfold Filter.fragments
  rw [(splits_of_quotations quotation quotations).eq, List.map_flatMap]

theorem parts_of_quotations :
    (Value.text (filter (quotations.map Quotation.item))).parts Filter.fragments =
      quotations.flatMap fun quotation => Filter.fragments quotation.item.written := by
  cases quotations with
  | nil => rfl
  | cons quotation quotations =>
      have found := fragments_of_quotations quotation quotations
      by_cases empty : (filter ((quotation :: quotations).map Quotation.item)).isEmpty = true
      · have alone : Filter.fragments "" = [""] := by simp [Filter.fragments, Text.splitAtText]
        obtain ⟨piece, _, written⟩ := quotation.fragments_written
        rw [String.isEmpty_iff.mp empty, alone, List.flatMap_cons, written, List.cons_append]
          at found
        have blank := congrArg String.toList (List.cons.inj found).1
        rw [String.toList_ofList] at blank
        simp at blank
      · rw [← found]
        exact if_neg empty

theorem clauses_of_quotations :
    (quotations.flatMap fun quotation => Filter.fragments quotation.item.written).countP
        Filter.isClause =
      quotations.length + (quotations.flatMap Quotation.cutOff).countP Filter.isClause := by
  induction quotations with
  | nil => rfl
  | cons quotation quotations induction =>
      obtain ⟨piece, opens, written⟩ := quotation.fragments_written
      have oneLine : '\n' ∉ piece := by
        intro member
        rcases List.mem_append.mp (opens.subset member) with inside | closing
        · exact quotation.oneLine inside
        · have ink := quotation.quote_ink
          rw [← List.mem_singleton.mp closing] at ink
          cases ink
      rw [List.flatMap_cons, List.flatMap_cons, List.countP_append, List.countP_append, induction,
        written, List.countP_cons_of_pos (quotation.opening_is_clause oneLine), List.length_cons]
      omega

end Conjunction

theorem read_quotations {quotations : List Quotation}
    (free : ∀ quotation ∈ quotations, ¬quotation.HasSeparator) (strictness : Strictness) :
    Filter.read .standard strictness (.text (filter (quotations.map Quotation.item))) =
      .ok ((quotations.map Quotation.item).zipIdx.map fun (item, index) => item.clause index) := by
  have writable : ∀ item ∈ quotations.map Quotation.item, item.IsWritable := by
    intro item member
    obtain ⟨quotation, known, rfl⟩ := List.mem_map.mp member
    exact quotation.writable (free quotation known)
  exact read_filter writable strictness

/-- A quoted text is opaque exactly when the separator is not in it. Then, and only then, the
comparison is read as one clause at position 0, on its field, with its operator and with a literal
that is the text, whatever else the text contains. In a conjunction each comparison makes a clause;
the only clauses beyond these are fragments of the texts cut off by separators, so without separators
there are as many clauses as comparisons. -/
theorem quoted_texts_opaque_without_separator :
    (∀ (quotation : Quotation) (strictness : Strictness),
      (∃ clause raw, Filter.read .standard strictness (.text quotation.item.written) =
            .ok [clause] ∧
          clause.position = 0 ∧ clause.field = quotation.field ∧
          clause.operator = .comparison quotation.kind ∧ clause.rawValue = some raw ∧
          Literal.ofRaw raw = .ok (.text quotation.text)) ↔
        ¬quotation.HasSeparator) ∧
    ∀ quotations : List Quotation, ∃ clauses,
      Filter.read .standard .lenient (.text (filter (quotations.map Quotation.item))) =
          .ok clauses ∧
        clauses.length =
          quotations.length + (quotations.flatMap Quotation.cutOff).countP Filter.isClause ∧
        ((∀ quotation ∈ quotations, ¬quotation.HasSeparator) → ∀ strictness,
          Filter.read .standard strictness (.text (filter (quotations.map Quotation.item))) =
              .ok clauses ∧
            clauses.length = quotations.length) := by
  refine ⟨fun quotation strictness => ⟨?_, fun free => ?_⟩, fun quotations => ?_⟩
  · rintro ⟨clause, raw, read, _, _, _, given, stands⟩
    exact Filter.literal_free read List.mem_cons_self given stands
  · have alone : filter ([quotation].map Quotation.item) = quotation.item.written :=
      String.intercalate_singleton
    have read := read_quotations (List.forall_mem_singleton.mpr free) strictness
    rw [alone] at read
    exact ⟨_, _, read, rfl, rfl, rfl, rfl,
      Term.of_raw_written ((quotation.writable free).term _ rfl)⟩
  · obtain ⟨clauses, read, counted⟩ := Filter.read_fragments_count 0
      (quotations.flatMap fun quotation => Filter.fragments quotation.item.written)
    rw [clauses_of_quotations] at counted
    rw [← parts_of_quotations, ← Filter.read_eq_read_fragments] at read
    refine ⟨clauses, read, counted, fun free strictness => ?_⟩
    have same := read_quotations free .lenient
    rw [read] at same
    obtain rfl := Except.ok.inj same
    refine ⟨read_quotations free strictness, ?_⟩
    simp

def ofKeywords : Quotation where
  field := "posts.title"
  kind := .ne
  quote := '\''
  text := "eq null and(\"x\") and"
  isPath := by decide
  isQuote := .inl rfl
  oneLine := by decide
  unquoted := by decide
  noNull := fun _ => by decide

theorem keywords_are_opaque :
    (∃ clause raw, Filter.read .standard .strict
          (.text "posts.title ne 'eq null and(\"x\") and'") = .ok [clause] ∧
        clause.position = 0 ∧ clause.field = "posts.title" ∧
        clause.operator = .comparison .ne ∧ clause.rawValue = some raw ∧
        Literal.ofRaw raw = .ok (.text "eq null and(\"x\") and")) ∧
      ∃ clauses, Filter.read .standard .strict
        (.text (filter ([ofKeywords, ofKeywords].map Quotation.item))) = .ok clauses ∧
          clauses.length = 2 := by
  obtain ⟨single, conjunction⟩ := quoted_texts_opaque_without_separator
  have free : ¬ofKeywords.HasSeparator := by
    unfold Quotation.HasSeparator
    decide +kernel
  have written : ofKeywords.item.written = "posts.title ne 'eq null and(\"x\") and'" := by
    decide +kernel
  refine ⟨written ▸ (single ofKeywords .strict).mpr free, ?_⟩
  obtain ⟨clauses, _, _, counted⟩ := conjunction [ofKeywords, ofKeywords]
  exact ⟨clauses, counted (by simp [free]) .strict⟩

def ofTwoSpices : Quotation where
  field := "name"
  kind := .eq
  quote := '\''
  text := "salt and tags eq pepper"
  isPath := by decide
  isQuote := .inl rfl
  oneLine := by decide
  unquoted := by decide
  noNull := fun _ => by decide

/-- One comparison is read as two clauses, and the first one's literal is a part of the text with a
quote before it. -/
theorem separator_cuts_text :
    ofTwoSpices.item.written = "name eq 'salt and tags eq pepper'" ∧
      (∃ clauses, Filter.read .standard .strict (.text ofTwoSpices.item.written) = .ok clauses ∧
        clauses = [⟨"name", .comparison .eq, some "'salt", 0⟩,
          ⟨"tags", .comparison .eq, some "pepper'", 1⟩] ∧
        clauses.length ≠ [ofTwoSpices].length) ∧
      Literal.ofRaw "'salt" = .ok (.text "'salt") := by
  refine ⟨by decide +kernel, ⟨_, ok_of_to_option ?_, rfl, by decide⟩, ?_⟩
  · decide +kernel
  · exact ok_of_to_option (by decide +kernel)

end Rendering

end QueryOptions
