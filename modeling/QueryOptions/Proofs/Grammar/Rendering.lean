import QueryOptions.Proofs.Grammar.Legible
import QueryOptions.Proofs.Request.Numerals

/-!
Writing filters. An item is a clause as one would write it: a path, an operator, and a text between
quotes or an integer in decimal. The conjunction of items is read back item by item, whatever stands
between the quotes, and each predicate binds what was written.
-/

namespace QueryOptions.Rendering

open Agreement (separator Writes)

inductive Term where
  | quoted (quote : Char) (text : String)
  | integer (number : Int)
  deriving DecidableEq, Repr

inductive Item where
  | isNull (field : String)
  | isNotNull (field : String)
  | comparison (field : String) (kind : Comparison) (term : Term)
  | pattern (kind : Pattern) (field : String) (term : Term)
  deriving DecidableEq, Repr

namespace Term

def written : Term → String
  | .quoted quote text => String.ofList (quote :: (text.toList ++ [quote]))
  | .integer number => toString number

/-- One line without the separator between two quotes of either kind, or an integer of at most 4300
digits. -/
def IsWritable : Term → Prop
  | .quoted quote text => (quote = '\'' ∨ quote = '"') ∧ '\n' ∉ text.toList ∧
      Text.occursIn " and ".toList text.toList = false
  | .integer number => (Nat.toDigits 10 number.natAbs).length ≤ 4300

def IsNoNull : Term → Prop
  | .quoted _ text => text.toList.map Char.toLower ≠ "null".toList
  | .integer _ => True

instance : (term : Term) → Decidable term.IsWritable
  | .quoted _ _ => inferInstanceAs (Decidable (_ ∧ _ ∧ _))
  | .integer _ => inferInstanceAs (Decidable (_ ≤ _))

instance : (term : Term) → Decidable term.IsNoNull
  | .quoted _ _ => inferInstanceAs (Decidable (_ ≠ _))
  | .integer _ => inferInstanceAs (Decidable True)

def literal : Term → Literal
  | .quoted _ text => .text text
  | .integer number => .integer number

def text : Term → String
  | .quoted _ text => text
  | .integer number => toString number

end Term

namespace Item

def field : Item → String
  | .isNull field | .isNotNull field | .comparison field _ _ | .pattern _ field _ => field

def operator : Item → Operator
  | .isNull _ => .isNull
  | .isNotNull _ => .isNotNull
  | .comparison _ kind _ => .comparison kind
  | .pattern kind _ _ => .pattern kind

def term? : Item → Option Term
  | .isNull _ | .isNotNull _ => none
  | .comparison _ _ term | .pattern _ _ term => some term

def written : Item → String
  | .isNull field => field ++ " eq null"
  | .isNotNull field => field ++ " ne null"
  | .comparison field kind term => field ++ " " ++ kind.keyword ++ " " ++ term.written
  | .pattern kind field term => kind.keyword ++ "(" ++ field ++ "," ++ term.written ++ ")"

/-- An equality or inequality with the word `null` would be a null check. -/
structure IsWritable (item : Item) : Prop where
  path : Identifier.isPath item.field = true
  term : ∀ term, item.term? = some term → term.IsWritable
  noNull : item.operator = .comparison .eq ∨ item.operator = .comparison .ne →
    ∀ term, item.term? = some term → term.IsNoNull

def clause (item : Item) (index : Nat) : Clause where
  field := item.field
  operator := item.operator
  rawValue := item.term?.map Term.written
  position := index

def bound : Item → Option Literal
  | .isNull _ | .isNotNull _ => none
  | .comparison _ _ term => some term.literal
  | .pattern .contains _ term => some (.text ("%" ++ term.text ++ "%"))
  | .pattern .startsWith _ term => some (.text (term.text ++ "%"))
  | .pattern .endsWith _ term => some (.text ("%" ++ term.text))

def predicate (item : Item) (rootAlias : String) (index : Nat) : Predicate :=
  .onColumn (qualifyField item.field rootAlias) item.operator
    (item.bound.map fun literal => ⟨"val" ++ toString index, literal⟩)

end Item

def filter (items : List Item) : String := " and ".intercalate (items.map Item.written)

theorem numeral_not_null {numeral : Literal.PlainNumeral} (proper : numeral.IsProper) :
    ¬Clause.NullWord numeral.written := by
  intro null
  obtain ⟨first, rest, parts, opens⟩ := proper.opens
  obtain ⟨letter, letters, same, word⟩ := null.opens
  rw [parts] at same
  cases same
  have noLetter : first.isAlpha = false := by
    rcases opens with digit | rfl | rfl
    · exact Text.digit_not_letter digit
    · rfl
    · rfl
  have lower : first.toLower = first := by
    rcases Clause.lower_eq_self_or_letter first with self | ⟨alpha, _⟩
    · exact self
    · rw [noLetter] at alpha
      cases alpha
  rw [lower] at word
  rcases opens with digit | rfl | rfl
  · rcases word with rfl | rfl | rfl <;> exact absurd digit (by decide)
  · exact absurd word (by decide)
  · exact absurd word (by decide)

namespace Term

variable {term : Term}

theorem shaped (writable : term.IsWritable) : Writes.IsShaped term.written.toList := by
  cases term with
  | quoted quote text =>
      obtain ⟨isQuote, oneLine, free⟩ := writable
      rw [written, String.toList_ofList]
      exact Writes.quoted_shaped isQuote oneLine free
  | integer number =>
      rw [written, Literal.decimal_written]
      exact Writes.signed_shaped _ Nat.toDigits_ne_nil (Text.decimal_digits number.natAbs)

theorem of_raw_written (writable : term.IsWritable) :
    Literal.ofRaw term.written = .ok term.literal := by
  cases term with
  | quoted quote text => exact Literal.of_raw_quoted writable.1 text
  | integer number => exact Literal.of_raw_decimal writable

theorem as_text_literal (term : Term) : term.literal.asText = term.text := by
  cases term <;> rfl

theorem not_null_word (writable : term.IsWritable) (noNull : term.IsNoNull) :
    ¬Clause.NullWord term.written.toList := by
  intro null
  cases term with
  | quoted quote text =>
      rw [written, String.toList_ofList] at null
      exact noNull (Clause.null_word_quoted writable.1 null)
  | integer number =>
      rw [written, Literal.decimal_written,
        ← Literal.PlainNumeral.whole_written ⟨_, _, none⟩ rfl] at null
      exact numeral_not_null
        ⟨Text.decimal_digits number.natAbs, by simp, .inl Nat.toDigits_ne_nil⟩ null

end Term

namespace Item

theorem legible {item : Item} (writable : item.IsWritable) :
    Clause.IsLegible item.written item.operator item.field (item.term?.map Term.written) := by
  have path := writable.path
  have null : Clause.NullWord "null".toList := .bare (by decide)
  have singleBlanks {field keyword : List Char} {word text : List Char}
      (parts : text = field ++ ' ' :: (keyword ++ ' ' :: word)) :
      Clause.Spaced text field keyword word :=
    ⟨[' '], [' '], by decide, by decide, by decide, by decide, by simpa using parts⟩
  cases item with
  | isNull field =>
      exact Clause.null_check_legible path .isNull rfl (singleBlanks String.toList_append) null
  | isNotNull field =>
      exact Clause.null_check_legible path .isNotNull rfl (singleBlanks String.toList_append) null
  | comparison field kind term =>
      have termWritable := writable.term term rfl
      refine Clause.comparison_legible path (Term.shaped termWritable) kind fun kinds => ?_
      exact Term.not_null_word termWritable
        (writable.noNull (kinds.imp (congrArg _) (congrArg _)) term rfl)
  | pattern kind field term =>
      exact Clause.call_legible path (Term.shaped (writable.term term rfl)) kind

end Item

theorem read_fragments_of_clause {grammar : Grammar} {strictness : Strictness} {position : Int}
    {fragment : String} {clause : Clause}
    (found : grammar.readClause fragment.toList position = some clause) (rest : List String) :
    Filter.readFragments grammar strictness position (fragment :: rest) =
      (Filter.readFragments grammar strictness (position + 1) rest).map (clause :: ·) := by
  rw [Filter.readFragments, Filter.readFragment, found]
  cases Filter.readFragments grammar strictness (position + 1) rest <;> rfl

/-- The induction is on the items; the index of the first one is carried along. -/
theorem read_items {items : List Item} (writable : ∀ item ∈ items, item.IsWritable)
    (strictness : Strictness) (start : Nat) :
    Filter.readFragments .standard strictness start (items.map Item.written) =
      .ok ((items.zipIdx start).map fun (item, index) => item.clause index) := by
  induction items generalizing start with
  | nil => rfl
  | cons item items induction =>
      have rest := induction (fun other member => writable other (List.mem_cons_of_mem item member))
        (start + 1)
      have head := (Item.legible (writable item List.mem_cons_self)).read start
      rw [Int.natCast_add] at rest
      rw [List.map_cons, read_fragments_of_clause head, List.zipIdx_cons]
      change (Filter.readFragments .standard strictness ((start : Int) + (1 : Nat)) _).map _ = _
      rw [rest]
      rfl

theorem read_filter {items : List Item} (writable : ∀ item ∈ items, item.IsWritable)
    (strictness : Strictness) :
    Filter.read .standard strictness (.text (filter items)) =
      .ok (items.zipIdx.map fun (item, index) => item.clause index) := by
  have parts : (Value.text (filter items)).parts Filter.fragments = items.map Item.written := by
    refine Clause.parts_of_legible fun text member => ?_
    obtain ⟨item, known, rfl⟩ := List.mem_map.mp member
    exact ⟨_, _, _, Item.legible (writable item known)⟩
  rw [Filter.read_eq_read_fragments, parts]
  exact read_items writable strictness 0

namespace Item

variable {item : Item}

theorem bind_written (writable : item.IsWritable) (index : Nat) :
    item.operator.bind ((item.clause index).rawValue.getD "") = .ok item.bound := by
  cases item with
  | isNull field => rfl
  | isNotNull field => rfl
  | comparison field kind term =>
      have read := Term.of_raw_written (writable.term term rfl)
      have bound : (Operator.comparison kind).bind term.written = .ok (some term.literal) := by
        rw [Operator.bind, read]
        rfl
      exact bound
  | pattern kind field term =>
      have read := Term.of_raw_written (writable.term term rfl)
      have bound : (Operator.pattern kind).bind term.written =
          .ok (some (.text (kind.wrap term.literal.asText))) := by
        rw [Operator.bind, read]
        rfl
      rw [Term.as_text_literal] at bound
      cases kind <;> exact bound

theorem resolve_written (writable : item.IsWritable) {scope : Scope}
    (unlimited : scope.access.filterable = []) (index : Nat) :
    scope.resolve (item.clause index) = .ok (some (item.predicate scope.rootAlias index)) := by
  have authorised : scope.authorise (item.clause index).field = .ok () :=
    (scope.authorise_iff _).mpr ⟨writable.path, .inl unlimited⟩
  have built : scope.predicate (item.clause index) (item.clause index).position =
      .ok (item.predicate scope.rootAlias index) := by
    have bound := bind_written writable index
    change (do return Predicate.onColumn _ _ (Option.map _ (← item.operator.bind _))) = _
    rw [bound]
    rfl
  unfold Scope.resolve
  rw [authorised, Option.getD_none, built]
  rfl

end Item

theorem resolve_items {items : List Item} (writable : ∀ item ∈ items, item.IsWritable)
    {scope : Scope} (unlimited : scope.access.filterable = []) (start : Nat) :
    scope.resolveAll ((items.zipIdx start).map fun (item, index) => item.clause index) =
      .ok ((items.zipIdx start).map fun (item, index) => item.predicate scope.rootAlias index) := by
  induction items generalizing start with
  | nil => rfl
  | cons item items induction =>
      have rest := induction (fun other member => writable other (List.mem_cons_of_mem item member))
        (start + 1)
      have head := Item.resolve_written (writable item List.mem_cons_self) unlimited start
      rw [List.zipIdx_cons, List.map_cons, Scope.resolveAll, head, rest]
      rfl

/-- Reading undoes writing: the filter of a list of items has one clause for each item, in order and
numbered from 0, and without an allow-list each clause becomes the predicate that binds what its
item says, between wildcards if the operator is a pattern. -/
theorem reading_undoes_writing (items : List Item) (writable : ∀ item ∈ items, item.IsWritable)
    (strictness : Strictness) (scope : Scope) (unlimited : scope.access.filterable = []) :
    Filter.read .standard strictness (.text (filter items)) =
        .ok (items.zipIdx.map fun (item, index) => item.clause index) ∧
      scope.resolveAll (items.zipIdx.map fun (item, index) => item.clause index) =
        .ok (items.zipIdx.map fun (item, index) => item.predicate scope.rootAlias index) := by
  refine ⟨?_, resolve_items writable unlimited 0⟩
  have parts : (Value.text (filter items)).parts Filter.fragments = items.map Item.written := by
    refine Clause.parts_of_legible fun text member => ?_
    obtain ⟨item, known, rfl⟩ := List.mem_map.mp member
    exact ⟨_, _, _, Item.legible (writable item known)⟩
  rw [Filter.read_eq_read_fragments, parts]
  exact read_items writable strictness 0

/-- A field of the separator's word, a text with quotes, parentheses and operators in it, an empty
text and a negative number. -/
def awkward : List Item := [
  .comparison "and" .eq (.quoted '\'' "it's (a, b) eq 'c')"),
  .isNotNull "posts.title",
  .pattern .contains "name" (.quoted '"' ""),
  .pattern .startsWith "name" (.integer (-12))]

theorem awkward_writable : ∀ item ∈ awkward, item.IsWritable := by
  intro item member
  simp only [awkward, List.mem_cons, List.not_mem_nil, or_false] at member
  rcases member with rfl | rfl | rfl | rfl
  · refine ⟨by decide, ?_, ?_⟩
    · rintro term ⟨⟩
      decide
    · rintro _ term ⟨⟩
      decide
  · exact ⟨by decide, fun _ given => (nomatch given), fun _ _ given => (nomatch given)⟩
  · refine ⟨by decide, ?_, fun noPattern => by rcases noPattern with same | same <;> cases same⟩
    rintro term ⟨⟩
    decide
  · refine ⟨by decide, ?_, fun noPattern => by rcases noPattern with same | same <;> cases same⟩
    rintro term ⟨⟩
    decide

theorem reading_undoes_writing_awkward :
    filter awkward = "and eq 'it's (a, b) eq 'c')' and posts.title ne null and " ++
        "contains(name,\"\") and startswith(name,-12)" ∧
      (∀ item ∈ awkward, item.IsWritable) ∧
      Filter.read .standard .strict (.text (filter awkward)) = .ok [
        ⟨"and", .comparison .eq, some "'it's (a, b) eq 'c')'", 0⟩,
        ⟨"posts.title", .isNotNull, none, 1⟩,
        ⟨"name", .pattern .contains, some "\"\"", 2⟩,
        ⟨"name", .pattern .startsWith, some "-12", 3⟩] ∧
      ({} : Scope).resolveAll (awkward.zipIdx.map fun (item, index) => item.clause index) = .ok [
        .onColumn "entity.and" (.comparison .eq) (some ⟨"val0", .text "it's (a, b) eq 'c')"⟩),
        .onColumn "posts.title" .isNotNull none,
        .onColumn "entity.name" (.pattern .contains) (some ⟨"val2", .text "%%"⟩),
        .onColumn "entity.name" (.pattern .startsWith) (some ⟨"val3", .text "-12%"⟩)] := by
  obtain ⟨read, resolved⟩ := reading_undoes_writing awkward awkward_writable .strict {} rfl
  refine ⟨by decide +kernel, awkward_writable, read.trans ?_, resolved.trans ?_⟩
  · exact congrArg Except.ok (by decide +kernel)
  · exact congrArg Except.ok (by decide +kernel)

end QueryOptions.Rendering
