import QueryOptions.Proofs.Grammar.Rendering
import QueryOptions.Proofs.Memory.Filtered
import QueryOptions.Proofs.Text.Wildcards

/-!
Filters with a single pattern. The text between the quotes of a pattern clause becomes a pattern of
its own between wildcards, so what is looked for in a row is a piece that the text matches: within,
at the start or at the end. A text without wildcards is looked for as it is, whatever else stands in
it. A pattern that is taken from a text or a number matches that text or number itself.
-/

namespace QueryOptions

/-- Where an operator looks for a piece within a text. -/
def Pattern.Occurs (kind : Pattern) (piece text : List Char) : Prop :=
  match kind with
  | .contains => piece <:+: text
  | .startsWith => piece <+: text
  | .endsWith => piece <:+ text

theorem Pattern.wrap_matches_iff (kind : Pattern) (needle text : String) :
    Like.matchesExactly (kind.wrap needle) text = true ↔
      ∃ piece, Like.Matches (· == ·) needle.toList piece ∧ kind.Occurs piece text.toList := by
  unfold Like.matchesExactly
  rw [Like.matches_with_iff]
  cases kind with
  | contains =>
      have letters : (Pattern.contains.wrap needle).toList = '%' :: (needle.toList ++ ['%']) := by
        simp [wrap]
      rw [letters, Like.Matches.any_iff]
      constructor
      · rintro ⟨before, _, whole, matched⟩
        obtain ⟨piece, behind, rfl, inner⟩ := Like.Matches.then_any_iff.mp matched
        exact ⟨piece, inner, before, behind, by rw [whole, List.append_assoc]⟩
      · rintro ⟨piece, inner, before, behind, whole⟩
        refine ⟨before, piece ++ behind, by rw [← whole, List.append_assoc], ?_⟩
        exact Like.Matches.then_any_iff.mpr ⟨piece, behind, rfl, inner⟩
  | startsWith =>
      have letters : (Pattern.startsWith.wrap needle).toList = needle.toList ++ ['%'] := by
        simp [wrap]
      rw [letters, Like.Matches.then_any_iff]
      constructor
      · rintro ⟨piece, behind, whole, inner⟩
        exact ⟨piece, inner, behind, whole.symm⟩
      · rintro ⟨piece, inner, behind, whole⟩
        exact ⟨piece, behind, whole.symm, inner⟩
  | endsWith =>
      have letters : (Pattern.endsWith.wrap needle).toList = '%' :: needle.toList := by
        simp [wrap]
      rw [letters, Like.Matches.any_iff]
      constructor
      · rintro ⟨before, piece, whole, inner⟩
        exact ⟨piece, inner, before, whole.symm⟩
      · rintro ⟨piece, inner, before, whole⟩
        exact ⟨before, piece, whole.symm, inner⟩

theorem Pattern.occurs_self (kind : Pattern) (text : List Char) : kind.Occurs text text := by
  cases kind with
  | contains => exact List.infix_rfl
  | startsWith => exact List.prefix_rfl
  | endsWith => exact List.suffix_rfl

theorem Pattern.wrap_matches_self (kind : Pattern) (text : String) :
    Like.matchesExactly (kind.wrap text) text = true :=
  (kind.wrap_matches_iff text text).mpr
    ⟨text.toList, .refl beq_self_eq_true text.toList, kind.occurs_self text.toList⟩

/-- The names of the booleans are not what a pattern finds in them: these are written with capital
letters inside a row. -/
theorem Pattern.wrap_misses_flag (kind : Pattern) (flag : Bool) :
    Like.matchesExactly (kind.wrap (Literal.boolean flag).asText)
      (Value.boolean flag).plainText = false := by
  cases kind <;> cases flag <;> decide +kernel

namespace Rendering.Item

theorem pattern_writable (kind : Pattern) {field needle : String}
    (path : Identifier.isPath field = true) (oneLine : '\n' ∉ needle.toList)
    (free : Text.occursIn " and ".toList needle.toList = false) :
    (Item.pattern kind field (.quoted '\'' needle)).IsWritable where
  path := path
  term := by
    rintro _ ⟨⟩
    exact ⟨.inl rfl, oneLine, free⟩
  noNull := by
    rintro (same | same) <;> cases same

theorem bound_pattern (kind : Pattern) (field : String) (term : Term) :
    (Item.pattern kind field term).bound = some (.text (kind.wrap term.text)) := by
  cases kind <;> rfl

theorem written_pattern (kind : Pattern) (field needle : String) :
    (Item.pattern kind field (.quoted '\'' needle)).written =
      kind.keyword ++ "(" ++ field ++ ",'" ++ needle ++ "')" := by
  rw [← String.toList_inj]
  simp [Item.written, Term.written]

end Rendering.Item

namespace Memory.Collection

theorem holds_pattern_iff (kind : Pattern) (needle : String) {value : Value}
    (textual : value = .null ∨ ∃ text, value = .text text) :
    holds (.pattern kind) value (.text (kind.wrap needle)) = true ↔
      ∃ text, value = .text text ∧
        ∃ piece, Like.Matches (· == ·) needle.toList piece ∧ kind.Occurs piece text.toList := by
  rcases textual with rfl | ⟨text, rfl⟩
  · simp [holds, Value.isNull]
  · have matched : holds (.pattern kind) (.text text) (.text (kind.wrap needle)) =
        Like.matchesExactly (kind.wrap needle) text := rfl
    rw [matched, Pattern.wrap_matches_iff]
    simp

theorem testable_of_text (kind : Pattern) (needle : String) {value : Value}
    (textual : value = .null ∨ ∃ text, value = .text text) :
    Memory.isTestable (.pattern kind) value (.text needle) = true := by
  rcases textual with rfl | ⟨text, rfl⟩ <;> rfl

theorem pattern_operand (kind : Pattern) (field : String) (term : Rendering.Term)
    (rootAlias : String) (index : Nat) :
    (Condition.ofPredicate
        ((Rendering.Item.pattern kind field term).predicate rootAlias index)).operand =
      .text (kind.wrap term.text) := by
  unfold Condition.ofPredicate Rendering.Item.predicate
  rw [Rendering.Item.bound_pattern]
  rfl

section Selection

variable [Attributes]

theorem satisfies_pattern {collection : Collection} (kind : Pattern) {field path : String}
    (named : NamesPath collection.rootAlias field path) (term : Rendering.Term) (index : Nat)
    (row : Value) :
    collection.satisfies row (.ofPredicate
        ((Rendering.Item.pattern kind field term).predicate collection.rootAlias index)) =
      holds (.pattern kind) (resolve row path) (.text (kind.wrap term.text)) := by
  unfold satisfies
  rw [pattern_operand]
  exact congrArg (fun inner => holds _ (resolve row inner) _) (local_path_of_named collection named)

theorem can_test_pattern {collection : Collection} (kind : Pattern) {field path : String}
    (named : NamesPath collection.rootAlias field path) (term : Rendering.Term) (index : Nat)
    {row : Value} (textual : resolve row path = .null ∨ ∃ text, resolve row path = .text text) :
    collection.canTest row [.ofPredicate
      ((Rendering.Item.pattern kind field term).predicate collection.rootAlias index)] = true := by
  have testable : Memory.isTestable (.pattern kind)
      (resolve row (collection.localPath (qualifyField field collection.rootAlias)))
        (.text (kind.wrap term.text)) = true := by
    rw [local_path_of_named collection named]
    exact testable_of_text kind _ textual
  change (Memory.isTestable (.pattern kind) _ (Condition.operand _) && (_ || true)) = true
  rw [pattern_operand, Bool.or_true, Bool.and_true]
  exact testable

omit [Attributes] in
open Rendering in
theorem conditions_of_item {item : Item} (writable : item.IsWritable) {scope : Scope}
    (unlimited : scope.access.filterable = []) (index : Nat) :
    conditionsOf scope [item.clause index] =
      .ok [.ofPredicate (item.predicate scope.rootAlias index)] := by
  unfold conditionsOf
  rw [Scope.resolveAll, Item.resolve_written writable unlimited index]
  rfl

open Classical in
/-- A query with one pattern clause selects the rows whose text has a piece that matches what stands
between the quotes: within, at the start or at the end. If no wildcard stands there, the piece is
this very text. -/
theorem pattern_filter_selects (kind : Pattern) {field path needle : String}
    (identifier : Identifier.isPath field = true) (oneLine : '\n' ∉ needle.toList)
    (free : Text.occursIn " and ".toList needle.toList = false)
    {access : Access} (unlimited : access.filterable = []) {settings : Settings}
    {options : List (String × Value)}
    (asks : OnlyFilters access settings options
      (.text (kind.keyword ++ "(" ++ field ++ ",'" ++ needle ++ "')")))
    (named : NamesPath settings.rootAlias field path) {rows : List Value}
    (textual : ∀ row ∈ rows, resolve row path = .null ∨ ∃ text, resolve row path = .text text) :
    ∃ answer, (ask rows settings.rootAlias access settings options).execute.2 = .ok answer ∧
      (answer.rows = rows.filter fun row => ∃ text, resolve row path = .text text ∧
        ∃ piece, Like.Matches (· == ·) needle.toList piece ∧ kind.Occurs piece text.toList) ∧
      ('%' ∉ needle.toList → '_' ∉ needle.toList →
        answer.rows = rows.filter fun row => ∃ text, resolve row path = .text text ∧
          kind.Occurs needle.toList text.toList) := by
  let item : Rendering.Item := .pattern kind field (.quoted '\'' needle)
  have writable : item.IsWritable := Rendering.Item.pattern_writable kind identifier oneLine free
  have read : Filter.read .standard settings.strictness
      (.text (kind.keyword ++ "(" ++ field ++ ",'" ++ needle ++ "')")) = .ok [item.clause 0] := by
    have written := Rendering.read_filter (List.forall_mem_singleton.mpr writable)
      settings.strictness
    rwa [Rendering.filter, List.map_singleton, String.intercalate_singleton,
      Rendering.Item.written_pattern] at written
  have made : conditionsOf (settings.scope access) [item.clause 0] =
      .ok [.ofPredicate (item.predicate settings.rootAlias 0)] :=
    conditions_of_item writable unlimited 0
  have selected : keptBy rows settings.rootAlias
      [.ofPredicate (item.predicate settings.rootAlias 0)] =
      rows.filter fun row => ∃ text, resolve row path = .text text ∧
        ∃ piece, Like.Matches (· == ·) needle.toList piece ∧ kind.Occurs piece text.toList := by
    refine List.filter_congr fun row member => ?_
    rw [Bool.eq_iff_iff, List.all_cons, List.all_nil, Bool.and_true, decide_eq_true_iff,
      satisfies_pattern kind named]
    exact holds_pattern_iff kind needle (textual row member)
  have testable : canTestAll rows settings.rootAlias
      [.ofPredicate (item.predicate settings.rootAlias 0)] = true :=
    List.all_eq_true.mpr fun row member => can_test_pattern kind named _ 0 (textual row member)
  refine ⟨_, (answers_of_clauses asks read _).mpr ⟨_, made, testable, rfl⟩, selected, ?_⟩
  intro notAny notOne
  refine selected.trans (List.filter_congr fun row _ => ?_)
  simp only [Like.matches_plain_iff notAny notOne, exists_eq_left]

end Selection

open Classical in
attribute [local instance] Attributes.bare in
/-- A parenthesis, a point and an asterisk are looked for as they are, in texts that hold wildcards,
among rows without a name. -/
theorem pattern_filter_selects_metacharacters :
    let rows : List Value := [.record [("name", .text "f(.*)")], .record [("name", .text "f(xy)")],
      .record [("name", .null)], .record [], .record [("name", .text "%(.*_")]]
    let query := [("$filter", Value.text "contains(name,'(.*')")]
    OnlyFilters {} {} query (.text "contains(name,'(.*')") ∧
      NamesPath "entity" "name" "name" ∧
      (∀ row ∈ rows, resolve row "name" = .null ∨ ∃ text, resolve row "name" = .text text) ∧
      ∃ answer, (ask rows "entity" {} {} query).execute.2 = .ok answer ∧
        answer.rows.map (fun row => (resolve row "name").plainText) = ["f(.*)", "%(.*_"] ∧
        answer.rows = rows.filter fun row => ∃ text, resolve row "name" = .text text ∧
          Pattern.contains.Occurs "(.*".toList text.toList := by
  intro rows query
  have asks : OnlyFilters {} {} query (.text "contains(name,'(.*')") :=
    .of_filter {} _ rfl (by decide)
  have named : NamesPath "entity" "name" "name" := .inr ⟨rfl, by decide⟩
  have textual : ∀ row ∈ rows,
      resolve row "name" = .null ∨ ∃ text, resolve row "name" = .text text := by
    simp only [rows, List.forall_mem_cons, List.not_mem_nil, false_implies, implies_true, and_true]
    exact ⟨.inr ⟨_, rfl⟩, .inr ⟨_, rfl⟩, .inl rfl, .inl rfl, .inr ⟨_, rfl⟩⟩
  have identifier : Identifier.isPath "name" = true := by decide
  have oneLine : '\n' ∉ "(.*".toList := by decide
  have free : Text.occursIn " and ".toList "(.*".toList = false := by decide +kernel
  obtain ⟨answer, executed, _, plain⟩ :=
    pattern_filter_selects .contains identifier oneLine free rfl asks named textual
  have found : (ask rows "entity" {} {} query).execute.2.toOption.map (fun answer =>
      answer.rows.map fun row => (resolve row "name").plainText) = some ["f(.*)", "%(.*_"] := by
    decide +kernel
  rw [executed] at found
  exact ⟨asks, named, textual, answer, executed, Option.some.inj found,
    plain (by decide) (by decide)⟩

open Classical in
attribute [local instance] Attributes.bare in
/-- An underscore between the quotes is found in a text that has none. -/
theorem underscore_found_in_other_text :
    let rows : List Value := [.record [("name", .text "ab")]]
    let query := [("$filter", Value.text "contains(name,'_')")]
    OnlyFilters {} {} query (.text "contains(name,'_')") ∧
      resolve (.record [("name", .text "ab")]) "name" = .text "ab" ∧
      ∃ answer, (ask rows "entity" {} {} query).execute.2 = .ok answer ∧
        answer.rows.length = 1 ∧
        answer.rows ≠ rows.filter fun row => ∃ text, resolve row "name" = .text text ∧
          Pattern.contains.Occurs "_".toList text.toList := by
  intro rows query
  have counted : (ask rows "entity" {} {} query).execute.2.toOption.map (fun answer =>
      answer.rows.length) = some 1 := by
    decide +kernel
  obtain ⟨answer, found, one⟩ := Option.map_eq_some_iff.mp counted
  have absent : ¬Pattern.contains.Occurs "_".toList "ab".toList := by
    unfold Pattern.Occurs
    decide
  refine ⟨.of_filter {} _ rfl (by decide), rfl, answer, ok_of_to_option found, one, fun same => ?_⟩
  have nothing : (rows.filter fun row => ∃ text, resolve row "name" = .text text ∧
      Pattern.contains.Occurs "_".toList text.toList) = [] := by
    refine List.filter_eq_nil_iff.mpr fun row member => ?_
    rw [List.mem_singleton.mp member, decide_eq_true_iff]
    rintro ⟨text, ⟨⟩, occurs⟩
    exact absent occurs
  rw [same, nothing] at one
  cases one

end Memory.Collection

section OwnValues

variable {kind : Pattern} {raw : String} {literal : Literal}

theorem Memory.holds_own_pattern (kind : Pattern) {literal : Literal} (given : literal ≠ .null) :
    Memory.holds (.pattern kind) literal.value (.text (kind.wrap literal.asText)) =
      Like.matchesExactly (kind.wrap literal.asText) literal.value.plainText := by
  cases literal with
  | null => exact absurd rfl given
  | text | integer | real | boolean => rfl

theorem Literal.plain_text_of_value (noFlag : ∀ flag, literal ≠ .boolean flag)
    (given : literal ≠ .null) : literal.value.plainText = literal.asText := by
  cases literal with
  | boolean flag => exact absurd rfl (noFlag flag)
  | null => exact absurd rfl given
  | text | integer | real => rfl

/-- Where its field is authorised, a pattern clause makes a predicate that holds of the value that
its raw value stands for, unless this is a boolean. -/
theorem Scope.own_value_matches_unless_boolean {scope : Scope} (clause : Clause)
    (index? : Option Int) (authorised : scope.authorise clause.field = .ok ())
    (isPattern : clause.operator = .pattern kind)
    (read : Literal.ofRaw (clause.rawValue.getD "") = .ok literal) (given : literal ≠ .null) :
    ∃ predicate, scope.resolve clause index? = .ok (some predicate) ∧
      predicate.operator = .pattern kind ∧
      (Memory.holds predicate.operator literal.value
          (Memory.Condition.ofPredicate predicate).operand = true ↔
        ∀ flag, literal ≠ .boolean flag) := by
  have bound : clause.operator.bind (clause.rawValue.getD "") =
      .ok (some (.text (kind.wrap literal.asText))) := by
    rw [isPattern, Operator.bind, read]
    rfl
  refine ⟨_, by rw [resolve, authorised, predicate, bound]; rfl, isPattern, ?_⟩
  change Memory.holds clause.operator literal.value (.text (kind.wrap literal.asText)) = true ↔ _
  rw [isPattern, Memory.holds_own_pattern kind given]
  constructor
  · rintro matched flag rfl
    have missed : Like.matchesExactly _ (Literal.boolean flag).value.plainText = false :=
      kind.wrap_misses_flag flag
    rw [matched] at missed
    cases missed
  · intro noFlag
    rw [Literal.plain_text_of_value noFlag given]
    exact kind.wrap_matches_self literal.asText

theorem Scope.own_value_matches_wildcards :
    let scope : Scope := { access := { filterable := ["name"] }, strictness := .strict }
    let text : Clause := ⟨"name", .pattern .endsWith, some "'50%_(.*'", 2⟩
    let number : Clause := ⟨"name", .pattern .startsWith, some "1.50", 3⟩
    scope.authorise "name" = .ok () ∧
      Literal.ofRaw "'50%_(.*'" = .ok (.text "50%_(.*") ∧
      (∃ predicate, scope.resolve text = .ok (some predicate) ∧
        Memory.holds predicate.operator (.text "50%_(.*")
          (Memory.Condition.ofPredicate predicate).operand = true) ∧
      ∃ value predicate, Literal.ofRaw "1.50" = .ok (.real value) ∧
        scope.resolve number = .ok (some predicate) ∧
        Memory.holds predicate.operator (.real value)
          (Memory.Condition.ofPredicate predicate).operand = true := by
  intro scope text number
  have authorised : scope.authorise "name" = .ok () := by decide +kernel
  have readText : Literal.ofRaw "'50%_(.*'" = .ok (.text "50%_(.*") := by decide +kernel
  have readNumber : Literal.ofRaw "1.50" = .ok (.real (.ofDecimal false 150 (-2))) := by
    decide +kernel
  obtain ⟨first, firstMade, _, firstHolds⟩ :=
    own_value_matches_unless_boolean text none authorised rfl readText (by simp)
  obtain ⟨second, secondMade, _, secondHolds⟩ :=
    own_value_matches_unless_boolean number none authorised rfl readNumber (by simp)
  exact ⟨authorised, readText, ⟨first, firstMade, firstHolds.mpr (by simp)⟩,
    _, second, readNumber, secondMade, secondHolds.mpr (by simp)⟩

theorem Scope.boolean_not_matched_by_own_name :
    Literal.ofRaw "true" = .ok (.boolean true) ∧
      ¬∀ predicate, resolve {} ⟨"active", .pattern .contains, some "true", 0⟩ =
          .ok (some predicate) →
        Memory.holds predicate.operator (.boolean true)
          (Memory.Condition.ofPredicate predicate).operand = true := by
  refine ⟨by decide, fun always => ?_⟩
  have missed := always _ rfl
  revert missed
  decide +kernel

end OwnValues

end QueryOptions
