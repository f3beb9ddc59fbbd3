import QueryOptions.Proofs.Grammar.Rendering
import QueryOptions.Proofs.Memory.Columns
import QueryOptions.Proofs.Memory.Filtered

/-!
Comparisons of one field with one literal. A row stands below the literal, at it, above it, or
nowhere if its value is null. Each comparison selects the rows on its side and the test for null the
rows that stand nowhere, so the six comparisons fit together, whatever numbers or texts they
compare.
-/

namespace QueryOptions

open Agreement (separator Writes)

namespace Literal

/-- A raw text that writes a literal to compare with: a number, or a quoted line that hides no
separator and is not the word `null` in any letter case. -/
inductive IsOperand : String → Literal → Prop where
  | integer {raw : String} {value : Int} (read : ofRaw raw = .ok (.integer value)) :
      IsOperand raw (.integer value)
  | real {raw : String} {value : Binary64} (read : ofRaw raw = .ok (.real value)) :
      IsOperand raw (.real value)
  | text {raw : String} {quote : Char} {inner : String} (isQuote : quote = '\'' ∨ quote = '"')
      (quoted : raw.toList = quote :: (inner.toList ++ [quote])) (oneLine : '\n' ∉ inner.toList)
      (free : Text.occursIn separator inner.toList = false)
      (noNull : inner.toList.map Char.toLower ≠ "null".toList) : IsOperand raw (.text inner)

namespace IsOperand

variable {raw : String} {literal : Literal} (operand : IsOperand raw literal)

include operand

theorem reads : ofRaw raw = .ok literal := by
  cases operand with
  | integer read => exact read
  | real read => exact read
  | text isQuote quoted oneLine free noNull =>
      rw [← String.ofList_toList (s := raw), quoted]
      exact of_raw_quoted isQuote _

theorem spelled : (∃ numeral : PlainNumeral, numeral.IsProper ∧ raw.toList = numeral.written) ∨
    ∃ quote inner, (quote = '\'' ∨ quote = '"') ∧ raw.toList = quote :: (inner ++ [quote]) ∧
      '\n' ∉ inner ∧ Text.occursIn separator inner = false ∧
      inner.map Char.toLower ≠ "null".toList := by
  have numeral (noText : ∀ text, literal ≠ .text text) (noFlag : ∀ flag, literal ≠ .boolean flag)
      (noNull : literal ≠ .null) :
      ∃ numeral : PlainNumeral, numeral.IsProper ∧ raw.toList = numeral.written := by
    obtain ⟨numeral, proper, written, _⟩ := numeral_of_raw raw
      (by simpa [operand.reads] using noText) (by simpa [operand.reads] using noFlag)
      (by simpa [operand.reads] using noNull)
    exact ⟨numeral, proper, written⟩
  cases operand with
  | integer read => exact .inl (numeral (by simp) (by simp) (by simp))
  | real read => exact .inl (numeral (by simp) (by simp) (by simp))
  | text isQuote quoted oneLine free noNull =>
      exact .inr ⟨_, _, isQuote, quoted, oneLine, free, noNull⟩

theorem shaped : Writes.IsShaped raw.toList := by
  obtain ⟨numeral, proper, written⟩ | ⟨quote, inner, isQuote, quoted, oneLine, free, _⟩ :=
    operand.spelled
  · exact written ▸ Writes.numeral_shaped proper
  · exact quoted ▸ Writes.quoted_shaped isQuote oneLine free

theorem not_null_word : ¬Clause.NullWord raw.toList := by
  obtain ⟨numeral, proper, written⟩ | ⟨quote, inner, isQuote, quoted, _, _, noNull⟩ :=
    operand.spelled
  · exact written ▸ Rendering.numeral_not_null proper
  · rw [quoted]
    exact fun null => noNull (Clause.null_word_quoted isQuote null)

theorem scalar : Memory.IsScalar literal.value ∧ literal.value.isNull = false := by
  have read := operand.reads
  cases operand with
  | integer | text => exact ⟨trivial, rfl⟩
  | real =>
      obtain ⟨_, isRead⟩ := real_of_raw read
      exact ⟨isRead.number, rfl⟩

end IsOperand

end Literal

namespace Memory

theorem order_of_family {left right : Value} (leftScalar : IsScalar left)
    (rightScalar : IsScalar right) (families : familyOf left = familyOf right)
    (given : left ≠ .null) :
    ∃ place, left.order right = .ok (some place) ∧ left.equal right = decide (place = .eq) := by
  obtain rfl | number | isText := scalar_families leftScalar
  · exact absurd rfl given
  · obtain ⟨_, leftPoint, leftAt, leftPlaced, _⟩ := point_of_number leftScalar number
    obtain ⟨_, rightPoint, rightAt, rightPlaced, _⟩ :=
      point_of_number rightScalar (families.symm.trans number)
    obtain ⟨equal, order⟩ := numbers_compare leftAt rightAt
    refine ⟨leftPoint.compare rightPoint, ?_, ?_⟩
    · simp [order, Number.compare?, leftPlaced, rightPlaced]
    · simp [equal, Number.compare?, leftPlaced, rightPlaced]
  · obtain ⟨text, rfl⟩ := text_of_family isText
    obtain ⟨other, rfl⟩ := text_of_family (families.symm.trans isText)
    refine ⟨Value.compareText text other, by rw [Value.order], ?_⟩
    rw [Value.equal, Value.compareText]
    split
    · simp_all
    · rename_i different
      split <;> simp [different]

theorem is_null_of_given {value : Value} (given : value ≠ .null) : value.isNull = false := by
  cases value with
  | null => exact absurd rfl given
  | _ => rfl

def standing (literal : Literal) (value : Value) : Option Ordering :=
  match value.order literal.value with
  | .ok place => place
  | .error _ => none

section Standing

variable {literal : Literal} {value : Value}

theorem standing_null : standing literal .null = none := by
  cases literal <;> rfl

variable (comparable : IsScalar literal.value ∧ literal.value.isNull = false)
  (ofKind : value = .null ∨ IsScalar value ∧ familyOf value = familyOf literal.value)

include comparable ofKind

theorem holds_comparison (kind : Comparison) :
    holds (.comparison kind) value literal.value =
      (standing literal value).any fun place => kind.holds (some place) := by
  obtain ⟨literalScalar, literalGiven⟩ := comparable
  obtain rfl | ⟨scalar, families⟩ := ofKind
  · rw [standing_null]
    rfl
  have given : value ≠ .null := by
    rintro rfl
    cases literal <;> cases families
    cases literalGiven
  have notNull : value.isNull = false := is_null_of_given given
  obtain ⟨place, order, equal⟩ := order_of_family scalar literalScalar families given
  rw [holds, notNull, literalGiven, standing, order]
  unfold compares
  rw [equal, order]
  cases kind <;> cases place <;> rfl

theorem is_null_iff_standing : value.isNull = true ↔ standing literal value = none := by
  obtain ⟨literalScalar, literalGiven⟩ := comparable
  obtain rfl | ⟨scalar, families⟩ := ofKind
  · exact iff_of_true rfl standing_null
  by_cases given : value = .null
  · subst given
    exact iff_of_true rfl standing_null
  obtain ⟨place, order, _⟩ := order_of_family scalar literalScalar families given
  have notNull : value.isNull = false := is_null_of_given given
  simp [notNull, standing, order]

end Standing

namespace Collection

section Selection

variable [Attributes]

/-- Whatever options ask for a filter and nothing else, the answer consists of these rows. -/
def Selects (rows : List Value) (access : Access) (settings : Settings) (filter : String)
    (kept : List Value) : Prop :=
  ∀ options, OnlyFilters access settings options (.text filter) →
    (ask rows settings.rootAlias access settings options).execute.2 = .ok ⟨kept, kept.length⟩

section Clauses

variable {access : Access} {settings : Settings} {text field path : String} {operator : Operator}
  {raw? : Option String} {literal? : Option Literal}

theorem selects_of_legible (legible : Clause.IsLegible text operator field raw?)
    (exact : ∀ pattern, operator ≠ .pattern pattern)
    (authorised : (settings.scope access).authorise field = .ok ())
    (bound : operator.bind (raw?.getD "") = .ok literal?)
    (named : NamesPath settings.rootAlias field path) (rows : List Value) :
    Selects rows access settings text (rows.filter fun row =>
      holds operator (resolve row path) ((literal?.map Literal.value).getD .null)) := by
  intro options asks
  let clause : Clause := ⟨field, operator, raw?, 0⟩
  have read : Filter.read .standard settings.strictness (.text text) = .ok [clause] := by
    have parts : (Value.text (" and ".intercalate [text])).parts Filter.fragments = [text] :=
      Clause.parts_of_legible fun other member =>
        List.mem_singleton.mp member ▸ ⟨operator, field, raw?, legible⟩
    rw [String.intercalate_singleton] at parts
    rw [Filter.read_eq_read_fragments, parts,
      Rendering.read_fragments_of_clause (legible.read 0)]
    rfl
  let predicate : Predicate := .onColumn (qualifyField field settings.rootAlias) operator
    (literal?.map fun literal => ⟨placeholder 0, literal⟩)
  have made : conditionsOf (settings.scope access) [clause] = .ok [.ofPredicate predicate] := by
    have resolved : (settings.scope access).resolve clause = .ok (some predicate) := by
      rw [Scope.resolve, authorised, Scope.predicate, bound]
      rfl
    rw [conditionsOf, Scope.resolveAll, resolved]
    rfl
  have kept : keptBy rows settings.rootAlias [.ofPredicate predicate] = rows.filter fun row =>
      holds operator (resolve row path) ((literal?.map Literal.value).getD .null) := by
    refine List.filter_congr fun row _ => ?_
    have operand : (Condition.ofPredicate predicate).operand =
        (literal?.map Literal.value).getD .null := by
      cases literal? <;> rfl
    rw [List.all_cons, List.all_nil, Bool.and_true, satisfies, operand]
    exact congrArg (fun path => holds operator (resolve row path) _)
      (local_path_of_named { rows := rows, rootAlias := settings.rootAlias } named)
  have testable : canTestAll rows settings.rootAlias [.ofPredicate predicate] = true :=
    can_test_all_of_no_pattern rows settings.rootAlias (List.forall_mem_singleton.mpr exact)
  rw [← kept]
  exact (answers_of_clauses asks read _).mpr ⟨_, made, testable, rfl⟩

end Clauses

section Parts

variable {access : Access} {settings : Settings} {field raw : String} {literal : Literal}
  {rows : List Value} (authorised : (settings.scope access).authorise field = .ok ())
  (named : NamesPath settings.rootAlias field field)

include authorised named

theorem selects_of_comparison (operand : Literal.IsOperand raw literal)
    (ofKind : ∀ row ∈ rows, resolve row field = .null ∨
      IsScalar (resolve row field) ∧ familyOf (resolve row field) = familyOf literal.value)
    (kind : Comparison) (wanted : Value → Bool)
    (same : ∀ row ∈ rows, ((standing literal (resolve row field)).any fun place =>
      kind.holds (some place)) = wanted row) :
    Selects rows access settings (field ++ " " ++ kind.keyword ++ " " ++ raw)
      (rows.filter wanted) := by
  have isPath := ((settings.scope access).authorise_iff field).mp authorised |>.1
  have legible := Clause.comparison_legible isPath operand.shaped kind
    fun _ => operand.not_null_word
  have bound : (Operator.comparison kind).bind raw = .ok (some literal) := by
    rw [Operator.bind, operand.reads]
    rfl
  have exact (pattern : Pattern) : Operator.comparison kind ≠ .pattern pattern := by
    rintro ⟨⟩
  have selects := selects_of_legible legible exact authorised bound named rows
  rwa [List.filter_congr fun row given => ?_] at selects
  rw [← same row given, ← holds_comparison operand.scalar (ofKind row given)]
  rfl

theorem selects_of_null_check (operator : Operator) (isNull : operator.form = .nullCheck)
    (wanted : Value → Bool)
    (same : ∀ row ∈ rows, holds operator (resolve row field) .null = wanted row) :
    Selects rows access settings (field ++ " " ++ operator.word ++ " " ++ "null")
      (rows.filter wanted) := by
  have isPath := ((settings.scope access).authorise_iff field).mp authorised |>.1
  have null : Clause.NullWord "null".toList := .bare (by decide)
  have spaced : Clause.Spaced (field ++ " " ++ operator.word ++ " " ++ "null").toList field.toList
      operator.word.toList "null".toList :=
    ⟨[' '], [' '], by decide, by decide, by decide, by decide, by simp⟩
  have legible := Clause.null_check_legible isPath operator isNull spaced null
  have bound : operator.bind ((none : Option String).getD "") = .ok none := by
    cases operator <;> first | rfl | cases isNull
  have exact (pattern : Pattern) : operator ≠ .pattern pattern := by
    rintro rfl
    cases isNull
  have selects := selects_of_legible legible exact authorised bound named rows
  rwa [Option.map_none, Option.getD_none, List.filter_congr same] at selects

end Parts

omit [Attributes] in
theorem parts_perm {α ι : Type} [DecidableEq ι] (place : α → ι) (rows : List α)
    {places : List ι} (apart : places.Nodup) (placed : ∀ row ∈ rows, place row ∈ places) :
    (places.flatMap fun other => rows.filter (place · = other)).Perm rows := by
  induction places generalizing rows with
  | nil =>
      cases rows with
      | nil => exact .nil
      | cons row rows => cases placed row List.mem_cons_self
  | cons first places induction =>
      obtain ⟨fresh, apart⟩ := List.nodup_cons.mp apart
      let rest := rows.filter fun row => !decide (place row = first)
      have later : ∀ row ∈ rest, place row ∈ places := fun row member => by
        obtain ⟨given, differs⟩ := List.mem_filter.mp member
        exact (List.mem_cons.mp (placed row given)).resolve_left (by simpa using differs)
      have same : (places.flatMap fun other => rows.filter (place · = other)) =
          places.flatMap fun other => rest.filter (place · = other) := by
        refine List.flatMap_congr fun other member => ?_
        rw [List.filter_filter]
        refine List.filter_congr fun row _ => ?_
        by_cases here : place row = other
        · have differs : other ≠ first := by
            rintro rfl
            exact fresh member
          simp [here, differs]
        · simp [here]
      rw [List.flatMap_cons, same]
      exact ((induction rest apart later).append_left _).trans (List.filter_append_perm _ rows)

omit [Attributes] in
theorem parts_disjoint {α ι : Type} [DecidableEq ι] (place : α → ι) (rows : List α)
    {places : List ι} (apart : places.Nodup) :
    (places.map fun other => rows.filter (place · = other)).Pairwise List.Disjoint := by
  refine List.pairwise_map.mpr (apart.imp fun {first second} differs => ?_)
  refine List.disjoint_left.mpr fun row inFirst inSecond => differs ?_
  have atFirst : place row = first := by simpa using (List.mem_filter.mp inFirst).2
  have atSecond : place row = second := by simpa using (List.mem_filter.mp inSecond).2
  exact atFirst.symm.trans atSecond

open Classical in
/-- The comparisons of a field with an operand part the rows, whose values are null or of the
operand's kind. A row is selected by `lt`, `eq` or `gt` as its value stands below the operand, at it
or above it, and by the test for null if it stands nowhere; the other comparisons select what their
names say. -/
theorem comparisons_part_rows {raw field : String} {literal : Literal}
    (operand : Literal.IsOperand raw literal) {access : Access} {settings : Settings}
    (authorised : (settings.scope access).authorise field = .ok ())
    (apart : ¬(settings.rootAlias ++ ".").toList <+: field.toList) {rows : List Value}
    (ofKind : ∀ row ∈ rows, resolve row field = .null ∨
      IsScalar (resolve row field) ∧ familyOf (resolve row field) = familyOf literal.value) :
    let filter (keyword raw : String) := field ++ " " ++ keyword ++ " " ++ raw
    let part (place : Option Ordering) :=
      rows.filter fun row => standing literal (resolve row field) = place
    let below := part (some .lt)
    let equal := part (some .eq)
    let above := part (some .gt)
    let missing := part none
    [below, equal, above, missing].Pairwise List.Disjoint ∧
      (below ++ equal ++ above ++ missing).Perm rows ∧
      Selects rows access settings (filter "lt" raw) below ∧
      Selects rows access settings (filter "eq" raw) equal ∧
      Selects rows access settings (filter "gt" raw) above ∧
      Selects rows access settings (filter "eq" "null") missing ∧
      Selects rows access settings (filter "le" raw)
        (rows.filter fun row => row ∈ below ∨ row ∈ equal) ∧
      Selects rows access settings (filter "ge" raw)
        (rows.filter fun row => row ∈ above ∨ row ∈ equal) ∧
      Selects rows access settings (filter "ne" raw)
        (rows.filter fun row => row ∈ below ∨ row ∈ above) ∧
      Selects rows access settings (filter "ne" "null")
        (rows.filter fun row => row ∈ below ∨ row ∈ equal ∨ row ∈ above) := by
  intro filter part below equal above missing
  have named : NamesPath settings.rootAlias field field := .inr ⟨rfl, apart⟩
  have member {row : Value} (given : row ∈ rows) (place : Option Ordering) :
      row ∈ part place ↔ standing literal (resolve row field) = place := by
    simp [part, given]
  have compared := selects_of_comparison authorised named operand ofKind
  have nowhere {row : Value} (given : row ∈ rows) : (resolve row field).isNull = true ↔
      standing literal (resolve row field) = none :=
    is_null_iff_standing operand.scalar (ofKind row given)
  have places : [some Ordering.lt, some .eq, some .gt, none].Nodup := by decide
  refine ⟨parts_disjoint _ rows places, ?_, ?_, ?_, ?_, ?_, ?_, ?_, ?_, ?_⟩
  · have whole := parts_perm (fun row => standing literal (resolve row field)) rows places
      fun row _ => by rcases standing literal (resolve row field) with _ | _ | _ | _ <;> decide
    simpa [below, equal, above, missing, part] using whole
  · refine compared .lt _ fun row given => ?_
    rcases standing literal (resolve row field) with _ | _ | _ | _ <;> rfl
  · refine compared .eq _ fun row given => ?_
    rcases standing literal (resolve row field) with _ | _ | _ | _ <;> rfl
  · refine compared .gt _ fun row given => ?_
    rcases standing literal (resolve row field) with _ | _ | _ | _ <;> rfl
  · refine selects_of_null_check authorised named .isNull rfl _ fun row given => ?_
    rw [Bool.eq_iff_iff, decide_eq_true_iff]
    exact nowhere given
  · refine compared .le _ fun row given => ?_
    rw [Bool.eq_iff_iff, decide_eq_true_iff, member given, member given]
    rcases standing literal (resolve row field) with _ | _ | _ | _ <;> simp [Comparison.holds]
  · refine compared .ge _ fun row given => ?_
    rw [Bool.eq_iff_iff, decide_eq_true_iff, member given, member given]
    rcases standing literal (resolve row field) with _ | _ | _ | _ <;> simp [Comparison.holds]
  · refine compared .ne _ fun row given => ?_
    rw [Bool.eq_iff_iff, decide_eq_true_iff, member given, member given]
    rcases standing literal (resolve row field) with _ | _ | _ | _ <;> simp [Comparison.holds]
  · refine selects_of_null_check authorised named .isNotNull rfl _ fun row given => ?_
    rw [Bool.eq_iff_iff, decide_eq_true_iff, member given, member given, member given, holds,
      Bool.not_eq_true', ← Bool.not_eq_true, nowhere given]
    rcases standing literal (resolve row field) with _ | _ | _ | _ <;> simp

end Selection

attribute [local instance] Attributes.bare in
/-- A boolean, an integer that no floating-point number is equal to, the one next to it and rows
without a value are parted at a dotted path. -/
theorem comparisons_part_mixed_rows :
    let row (value : Value) : Value := .record [("a", .record [("b", value)])]
    let real : Value := .real (.finite false 4503599627370496 1)
    let rows := [row (.integer 9007199254740993), row real, row (.boolean true), row .null,
      .record [], row (.integer 9007199254740992)]
    Literal.IsOperand "9007199254740992" (.integer 9007199254740992) ∧
      (({} : Settings).scope {}).authorise "a.b" = .ok () ∧
      (∀ row ∈ rows, resolve row "a.b" = .null ∨ IsScalar (resolve row "a.b") ∧
        familyOf (resolve row "a.b") = familyOf (.integer 9007199254740992)) ∧
      OnlyFilters {} {} [("$filter", .text "a.b eq 9007199254740992")]
        (.text "a.b eq 9007199254740992") ∧
      Selects rows {} {} "a.b lt 9007199254740992" [row (.boolean true)] ∧
      Selects rows {} {} "a.b eq 9007199254740992"
        [row real, row (.integer 9007199254740992)] ∧
      Selects rows {} {} "a.b gt 9007199254740992" [row (.integer 9007199254740993)] ∧
      Selects rows {} {} "a.b eq null" [row .null, .record []] := by
  intro row real rows
  have operand : Literal.IsOperand "9007199254740992" (.integer 9007199254740992) :=
    .integer (by decide +kernel)
  have authorised : (({} : Settings).scope {}).authorise "a.b" = .ok () := by decide
  have apart : ¬(({} : Settings).rootAlias ++ ".").toList <+: "a.b".toList := by decide
  have ofKind : ∀ row ∈ rows, resolve row "a.b" = .null ∨ IsScalar (resolve row "a.b") ∧
      familyOf (resolve row "a.b") = familyOf (.integer 9007199254740992) := by
    simp only [rows, List.forall_mem_cons, List.not_mem_nil, false_implies, implies_true, and_true]
    have given : Binary64.finite false 4503599627370496 1 ≠ .nan := nofun
    exact ⟨.inr ⟨trivial, rfl⟩, .inr ⟨given, rfl⟩, .inr ⟨trivial, rfl⟩, .inl rfl, .inl rfl,
      .inr ⟨trivial, rfl⟩⟩
  obtain ⟨_, _, below, equal, above, missing, _⟩ :=
    comparisons_part_rows operand authorised apart ofKind
  exact ⟨operand, authorised, ofKind, .of_filter {} _ rfl (by decide), below, equal, above, missing⟩

end Collection

end Memory

end QueryOptions
