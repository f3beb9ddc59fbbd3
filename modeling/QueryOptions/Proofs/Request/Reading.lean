import QueryOptions.Request

/-!
Lenient reading. A list of parts is read by going through it once: each part is taken over if it
can be and left out otherwise, so reading never fails and never reorders.
-/

namespace QueryOptions

/-- Going through items in order, each item that is due gives its part and every other one gives
nothing. The index counts all items. -/
inductive Picks {α β : Type} (due : Int → α → Prop) (gives : Int → α → β → Prop) :
    Int → List α → List β → Prop where
  | done (index : Int) : Picks due gives index [] []
  | taken {index : Int} {item : α} {part : β} {items : List α} {parts : List β}
      (called : due index item) (given : gives index item part)
      (rest : Picks due gives (index + 1) items parts) :
      Picks due gives index (item :: items) (part :: parts)
  | dropped {index : Int} {item : α} {items : List α} {parts : List β}
      (uncalled : ¬due index item) (rest : Picks due gives (index + 1) items parts) :
      Picks due gives index (item :: items) parts

namespace Picks

variable {α β : Type} {due : Int → α → Prop} {gives : Int → α → β → Prop}

theorem of_filter_map {read : α → Option β}
    (reads : ∀ index item part, gives index item part ↔ read item = some part)
    (index : Int) (items : List α) :
    Picks (fun index item => ∃ part, gives index item part) gives index items
      (items.filterMap read) := by
  induction items generalizing index with
  | nil => exact .done index
  | cons item items induction =>
      cases found : read item with
      | none =>
          rw [List.filterMap_cons_none found]
          refine .dropped ?_ (induction (index + 1))
          rintro ⟨part, given⟩
          rw [reads, found] at given
          cases given
      | some part =>
          have given := (reads index item part).mpr found
          rw [List.filterMap_cons_some found]
          exact .taken ⟨part, given⟩ given (induction (index + 1))

theorem shift (index : Int) (offset : Nat) : index + (offset + 1 : Nat) = index + 1 + offset := by
  omega

theorem item_of_part {index : Int} {items : List α} {parts : List β}
    (picks : Picks due gives index items parts) {part : β} (member : part ∈ parts) :
    ∃ (offset : Nat) (item : α), items[offset]? = some item ∧ gives (index + offset) item part := by
  induction picks with
  | done index => cases member
  | @taken index item first items parts called given rest induction =>
      rcases List.mem_cons.mp member with rfl | later
      · exact ⟨0, item, rfl, by simpa using given⟩
      · obtain ⟨offset, other, known, gave⟩ := induction later
        exact ⟨offset + 1, other, known, shift index offset ▸ gave⟩
  | @dropped index item items parts uncalled rest induction =>
      obtain ⟨offset, other, known, gave⟩ := induction member
      exact ⟨offset + 1, other, known, shift index offset ▸ gave⟩

theorem given_of_mem {index : Int} {items : List α} {parts : List β}
    (picks : Picks due gives index items parts) {part : β} (member : part ∈ parts) :
    ∃ position item, gives position item part := by
  obtain ⟨_, item, _, given⟩ := picks.item_of_part member
  exact ⟨_, item, given⟩

theorem part_of_item {index : Int} {items : List α} {parts : List β}
    (picks : Picks due gives index items parts) {offset : Nat} {item : α}
    (known : items[offset]? = some item) (called : due (index + offset) item) :
    ∃ part ∈ parts, gives (index + offset) item part := by
  induction picks generalizing offset with
  | done index => cases known
  | @taken index first part items parts _ given rest induction =>
      cases offset with
      | zero =>
          cases known
          exact ⟨part, List.mem_cons_self, by simpa using given⟩
      | succ offset =>
          rw [shift] at called ⊢
          obtain ⟨other, later, gave⟩ := induction known called
          exact ⟨other, List.mem_cons_of_mem part later, gave⟩
  | @dropped index first items parts uncalled rest induction =>
      cases offset with
      | zero =>
          cases known
          exact absurd (by simpa using called) uncalled
      | succ offset =>
          rw [shift] at called ⊢
          exact induction known called

theorem imp {gives' : Int → α → β → Prop} {index : Int} {items : List α} {parts : List β}
    (picks : Picks due gives index items parts) (start : 0 ≤ index)
    (weaker : ∀ (index : Nat) item part, gives index item part → gives' index item part) :
    Picks due gives' index items parts := by
  induction picks with
  | done index => exact .done index
  | @taken index item part items parts called given rest induction =>
      refine .taken called ?_ (induction (by omega))
      have natural := weaker index.toNat item part
      rw [Int.toNat_of_nonneg start] at natural
      exact natural given
  | dropped uncalled rest induction => exact .dropped uncalled (induction (by omega))

theorem pairwise {apart : β → β → Prop} {index : Int} {items : List α} {parts : List β}
    (picks : Picks due gives index items parts)
    (differ : ∀ i j left right first second, i < j → gives i left first →
      gives j right second → apart first second) : parts.Pairwise apart := by
  induction picks with
  | done index => exact .nil
  | @taken index item part items parts called given rest induction =>
      refine .cons ?_ induction
      intro other member
      obtain ⟨offset, _, _, gave⟩ := rest.item_of_part member
      exact differ index (index + 1 + offset) _ _ _ _ (by omega) given gave
  | dropped uncalled rest induction => exact induction

end Picks

/-- The parts of an option; anything but a text that is not empty has none. -/
def Value.parts {α : Type} (split : String → List α) : Value → List α
  | .text given => if given.isEmpty then [] else split given
  | _ => []

/-- What reads a text part by part, and anything else as nothing, reads the parts. -/
theorem Value.read_of_parts {α ρ : Type} {split : String → List α} {read : Value → ρ}
    {readAll : List α → ρ} (value : Value)
    (ofText : ∀ text,
      read (.text text) = if text.isEmpty then readAll [] else readAll (split text))
    (ofOther : (∀ text, value ≠ .text text) → read value = readAll []) :
    read value = readAll (value.parts split) := by
  cases value with
  | text text =>
      rw [ofText, parts]
      split <;> rfl
  | _ => exact ofOther fun _ => Value.noConfusion

/-- A list without entries opens every field. -/
def AllowList.Opens (fields : AllowList) (field : String) : Prop := fields = [] ∨ field ∈ fields

instance (fields : AllowList) (field : String) : Decidable (fields.Opens field) :=
  inferInstanceAs (Decidable (fields = [] ∨ field ∈ fields))

theorem admits_iff_opens (fields : AllowList) (field : String) :
    fields.admits field = true ↔ fields.Opens field := by
  simp [AllowList.admits, AllowList.Opens]

theorem ok_of_to_option {ε α : Type} {result : Except ε α} {value : α}
    (found : result.toOption = some value) : result = .ok value := by
  cases result with
  | error failure => cases found
  | ok _ =>
      cases found
      rfl

theorem error_of_to_option {ε α : Type} {result : Except ε α} (failed : result.toOption = none) :
    ∃ failure, result = .error failure := by
  cases result with
  | error failure => exact ⟨failure, rfl⟩
  | ok value => cases failed

theorem parts_of_bind {ε α β : Type} {first : Except ε α} {next : α → Except ε β} {value : β}
    (ended : first >>= next = .ok value) : ∃ part, first = .ok part ∧ next part = .ok value := by
  cases first with
  | error failure => cases ended
  | ok part => exact ⟨part, rfl, ended⟩

theorem bind_eq_ok_iff {ε α β : Type} {first : Except ε α} {next : α → Except ε β} {value : β} :
    first >>= next = .ok value ↔ ∃ part, first = .ok part ∧ next part = .ok value := by
  refine ⟨parts_of_bind, ?_⟩
  rintro ⟨part, rfl, rest⟩
  exact rest

theorem ok_of_map_error {ε η α : Type} {f : ε → η} {outcome : Except ε α} {value : α}
    (mapped : outcome.mapError f = .ok value) : outcome = .ok value := by
  cases outcome with
  | error failure => cases mapped
  | ok other => exact congrArg Except.ok (Except.ok.inj mapped)

theorem map_of_map_error {ε η α β : Type} (f : ε → η) (g : α → β) (outcome : Except ε α) :
    (outcome.mapError f).map g = (outcome.map g).mapError f := by
  cases outcome <;> rfl

theorem outcomes_of_map_eq {ε α β γ : Type} {f : α → γ} {g : β → γ} {first : Except ε α}
    {second : Except ε β} (same : first.map f = second.map g) :
    (∃ failure, first = .error failure ∧ second = .error failure) ∨
      ∃ value other, first = .ok value ∧ second = .ok other ∧ f value = g other := by
  cases first with
  | error failure =>
      cases second with
      | error other =>
          cases same
          exact .inl ⟨failure, rfl, rfl⟩
      | ok other => cases same
  | ok value =>
      cases second with
      | error failure => cases same
      | ok other => exact .inr ⟨value, other, rfl, rfl, Except.ok.inj same⟩

theorem settle_lenient {α : Type} (result : Except Rejection α) :
    Strictness.lenient.settle result = .ok result.toOption := by
  cases result <;> rfl

theorem erase_dups_nodup {α : Type} [BEq α] [LawfulBEq α] (items : List α) :
    items.eraseDups.Nodup := by
  match items with
  | [] => exact List.nodup_nil
  | item :: items =>
      rw [List.eraseDups_cons, List.nodup_cons]
      refine ⟨?_, erase_dups_nodup _⟩
      intro member
      simpa using List.mem_eraseDups.mp member
  termination_by items.length
  decreasing_by exact Nat.lt_succ_of_le (List.length_filter_le _ _)

theorem words_of_blank {text : List Char} (blank : text.all Text.isBlank = true) :
    Text.words text = [] := by
  induction text with
  | nil => rfl
  | cons c rest induction =>
      simp only [List.all_cons, Bool.and_eq_true] at blank
      unfold Text.words
      rw [if_pos blank.1]
      exact induction blank.2

namespace Filter

theorem read_eq_read_fragments (grammar : Grammar) (strictness : Strictness) (value : Value) :
    read grammar strictness value = readFragments grammar strictness 0 (value.parts fragments) := by
  refine value.read_of_parts (fun _ => rfl) ?_
  intro noText
  cases value with
  | text text => exact absurd rfl (noText text)
  | _ => rfl

theorem read_fragments_lenient (grammar : Grammar) (position : Int) (fragment : String)
    (rest : List String) :
    readFragments grammar .lenient position (fragment :: rest) =
      (readFragments grammar .lenient (position + 1) rest).map fun clauses =>
        (grammar.readClause fragment.toList position).toList ++ clauses := by
  simp only [readFragments, settle_lenient, readFragment]
  cases grammar.readClause fragment.toList position with
  | none => cases readFragments grammar .lenient (position + 1) rest <;> rfl
  | some clause => cases readFragments grammar .lenient (position + 1) rest <;> rfl

theorem clause_of_settled {grammar : Grammar} {strictness : Strictness} {fragment : String}
    {position : Int} {part : Option Clause}
    (settled : strictness.settle (readFragment grammar fragment position) = .ok part) :
    grammar.readClause fragment.toList position = part := by
  rw [readFragment] at settled
  cases found : grammar.readClause fragment.toList position with
  | some clause =>
      rw [found] at settled
      cases settled
      rfl
  | none =>
      rw [found] at settled
      cases strictness with
      | lenient => cases settled; rfl
      | strict => cases settled

/-- The clauses that are read are those of the fragments that can be read, each numbered by its
fragment. -/
theorem mem_read_fragments {grammar : Grammar} {strictness : Strictness} {position : Int}
    {fragments : List String} {clauses : List Clause}
    (read : readFragments grammar strictness position fragments = .ok clauses) (clause : Clause) :
    clause ∈ clauses ↔ ∃ (index : Nat) (fragment : String), fragments[index]? = some fragment ∧
      grammar.readClause fragment.toList (position + index) = some clause := by
  induction fragments generalizing position clauses with
  | nil =>
      cases read
      simp
  | cons first rest induction =>
      unfold readFragments at read
      obtain ⟨part, settled, read⟩ := parts_of_bind read
      obtain ⟨others, readRest, same⟩ := parts_of_bind read
      cases same
      rw [List.mem_append, Option.mem_toList, induction readRest, ← clause_of_settled settled]
      constructor
      · rintro (here | ⟨index, fragment, known, found⟩)
        · exact ⟨0, first, rfl, by simpa using here⟩
        · refine ⟨index + 1, fragment, known, ?_⟩
          rwa [Int.natCast_succ, Int.add_comm index 1, ← Int.add_assoc]
      · rintro ⟨index, fragment, known, found⟩
        cases index with
        | zero =>
            cases known
            exact .inl (by simpa using found)
        | succ index =>
            refine .inr ⟨index, fragment, known, ?_⟩
            rwa [Int.natCast_succ, Int.add_comm index 1, ← Int.add_assoc] at found

end Filter

namespace SortKey

theorem read_eq_read_entries (access : Access) (strictness : Strictness) (value : Value) :
    read access strictness value =
      readEntries access strictness
        (value.parts fun text => Text.splitAtChar ',' text.toList) := by
  refine value.read_of_parts (fun _ => rfl) ?_
  intro noText
  cases value with
  | text text => exact absurd rfl (noText text)
  | _ => rfl

theorem read_entries_lenient (access : Access) (entries : List (List Char)) :
    readEntries access .lenient entries =
      .ok (entries.filterMap fun entry => (readEntry access entry).toOption) := by
  induction entries with
  | nil => rfl
  | cons entry entries induction =>
      rw [List.filterMap_cons]
      by_cases blank : entry.all Text.isBlank = true
      · have refused : (readEntry access entry).toOption = none := by
          have unread : ofWords? (Text.words entry) = none := by
            rw [words_of_blank blank]
            rfl
          rw [readEntry, unread]
          rfl
        simp only [readEntries, blank, if_true, induction, refused]
      · simp only [readEntries, blank, if_false, settle_lenient, induction, Bool.false_eq_true]
        cases readEntry access entry <;> rfl

end SortKey

namespace Expansion

def names (value : Value) : List String :=
  (value.parts fun text => Text.splitAtChar ',' text.toList).map fun entry =>
    String.ofList (Text.trim entry)

theorem read_eq_read_entries (access : Access) (strictness : Strictness) (value : Value) :
    read access strictness value =
      readEntries access strictness []
        (value.parts fun text => Text.splitAtChar ',' text.toList) := by
  refine value.read_of_parts (fun _ => rfl) ?_
  intro noText
  cases value with
  | text text => exact absurd rfl (noText text)
  | _ => rfl

def accepts (access : Access) (relation : String) : Bool :=
  Identifier.isSimple relation && access.allowsExpand relation

theorem read_relation_to_option (access : Access) (relation : String) :
    (readRelation access relation).toOption =
      if accepts access relation then some relation else none := by
  unfold readRelation accepts
  by_cases simple : Identifier.isSimple relation = true
  · simp only [simple, if_true, Access.requireExpand, Bool.true_and]
    by_cases allowed : access.allowsExpand relation = true
    · simp only [allowed, if_true]
      rfl
    · simp only [allowed, Bool.false_eq_true, if_false]
      rfl
  · simp only [simple, Bool.false_eq_true, if_false, Bool.false_and]
    rfl

theorem empty_not_accepted (access : Access) : accepts access "" = false := by
  have notSimple : Identifier.isSimple "" = false := by rfl
  rw [accepts, notSimple, Bool.false_and]

/-- The accepted relations grow by the new ones among the entries, each at its first appearance. -/
theorem read_entries_lenient (access : Access) (accepted : List String)
    (entries : List (List Char)) :
    readEntries access .lenient accepted entries =
      .ok (accepted ++
        ((entries.map fun entry => String.ofList (Text.trim entry)).filter fun relation =>
          accepts access relation && !accepted.contains relation).eraseDups) := by
  induction entries generalizing accepted with
  | nil => simp [readEntries]
  | cons entry entries induction =>
      let relation := String.ofList (Text.trim entry)
      have shown : String.ofList (Text.trim entry) = relation := rfl
      simp only [readEntries, List.map_cons, shown]
      by_cases skipped : (relation.isEmpty || accepted.contains relation) = true
      · rw [if_pos skipped, induction]
        have unchosen : (accepts access relation && !accepted.contains relation) = false := by
          rcases Bool.or_eq_true_iff.mp skipped with blank | known
          · rw [String.isEmpty_iff.mp blank, empty_not_accepted]
            rfl
          · rw [known, Bool.not_true, Bool.and_false]
        simp only [List.filter_cons, unchosen, Bool.false_eq_true, if_false]
      · have fresh : accepted.contains relation = false := by
          cases known : accepted.contains relation with
          | false => rfl
          | true => exact absurd (by rw [known, Bool.or_true]) skipped
        rw [if_neg skipped]
        simp only [settle_lenient, read_relation_to_option]
        by_cases usable : accepts access relation = true
        · have chosen : (accepts access relation && !accepted.contains relation) = true := by
            rw [usable, fresh]
            rfl
          simp only [List.filter_cons, chosen, if_true]
          simp only [usable, if_true]
          change readEntries access .lenient (accepted ++ [relation]) entries = _
          rw [induction, List.eraseDups_cons, List.filter_filter, List.append_assoc,
            List.singleton_append]
          refine congrArg (fun found => Except.ok (accepted ++ relation :: List.eraseDups found)) ?_
          apply List.filter_congr
          intro other _
          rw [List.contains_append, List.contains_cons, List.contains_nil, Bool.or_false,
            Bool.not_or, Bool.and_comm (!(other == relation)), Bool.and_assoc]
        · have unchosen : (accepts access relation && !accepted.contains relation) = false := by
            rw [Bool.not_eq_true _ |>.mp usable, Bool.false_and]
          simp only [List.filter_cons, unchosen, Bool.false_eq_true, if_false]
          simp only [usable, Bool.false_eq_true, if_false]
          change readEntries access .lenient (accepted ++ []) entries = _
          rw [List.append_nil, induction]

end Expansion

end QueryOptions
