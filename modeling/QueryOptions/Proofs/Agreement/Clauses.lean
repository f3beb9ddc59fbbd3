import QueryOptions.Proofs.Agreement.Conditions
import QueryOptions.Proofs.Request.Admission

/-!
Written conditions and sorts are read back. A conjunction comes apart into its conditions, each
gives the clause that it stands for, and the clauses whose columns are open to filtering become
predicates; a list of sorts comes apart in the same way.
-/

namespace QueryOptions

theorem Value.parts_of_pieces {α : Type} {split : String → List α} {text : String} {blank : α}
    {pieces : List α} (alone : split "" = [blank]) (found : split text = pieces)
    (inked : blank ∉ pieces) : (Value.text text).parts split = pieces := by
  change (if text.isEmpty then [] else split text) = pieces
  by_cases empty : text.isEmpty = true
  · rw [String.isEmpty_iff.mp empty, alone] at found
    rw [← found] at inked
    exact absurd List.mem_cons_self inked
  · rw [if_neg empty, found]

namespace Agreement

theorem label_qualified (column : UserColumn) (rootAlias : String) :
    qualifyField column.label rootAlias = rootAlias ++ "." ++ column.label := by
  cases column <;> rfl

namespace Condition

variable (condition : Condition)

/-- The operator of the clause: equality with the word `null` is a null check. -/
def operator : Operator :=
  match condition.comparison, Clause.isNullWord condition.raw.toList with
  | .eq, true => .isNull
  | .ne, true => .isNotNull
  | comparison, _ => .comparison comparison

def operand : Option Literal :=
  match condition.operator with
  | .comparison _ => some condition.literal
  | _ => none

def clause (position : Int) : Clause where
  field := condition.column.label
  operator := condition.operator
  rawValue := condition.operand.map fun _ => condition.raw
  position := position

theorem three_parts :
    Clause.threeParts? condition.written.toList =
      some (condition.column.label.toList, condition.comparison.keyword.toList,
        condition.raw.toList) := by
  rw [written_to_list]
  refine Clause.three_parts_of_written (label_ink condition.column)
    (keyword_ink condition.comparison) ?_ condition.writes.shaped.trimmed
  cases condition.comparison <;> decide

theorem trimmed : Text.IsTrimmed condition.written.toList := by
  rw [written_to_list]
  have label : Text.IsTrimmed condition.column.label.toList :=
    .of_ink (by cases condition.column <;> decide) (label_ink condition.column)
  have keyword : Text.IsTrimmed condition.comparison.keyword.toList :=
    .of_ink (by cases condition.comparison <;> decide) (keyword_ink condition.comparison)
  exact label.joined (keyword.joined condition.writes.shaped.trimmed)

theorem read_null_check (comparison : Comparison) :
    Clause.readNullCheck comparison.keyword condition.written.toList =
      if condition.comparison = comparison ∧ Clause.isNullWord condition.raw.toList = true then
        some ⟨condition.column.label.toList, none⟩
      else none := by
  have path : Identifier.isPathFrom Identifier.isCaselessStart condition.column.label.toList =
      true := by
    cases condition.column <;> decide
  have keyword : Clause.lowerAscii condition.comparison.keyword.toList =
      comparison.keyword.toList ↔ condition.comparison = comparison := by
    cases condition.comparison <;> cases comparison <;> decide
  unfold Clause.readNullCheck
  rw [three_parts]
  simp [path, keyword]

theorem read_comparison (comparison : Comparison) :
    Clause.readComparison comparison.keyword condition.written.toList =
      if condition.comparison = comparison then
        some ⟨condition.column.label.toList, some condition.raw.toList⟩
      else none := by
  have path : Identifier.isPathFrom Identifier.isStart condition.column.label.toList = true := by
    cases condition.column <;> decide
  have keyword : condition.comparison.keyword.toList = comparison.keyword.toList ↔
      condition.comparison = comparison := by
    cases condition.comparison <;> cases comparison <;> decide
  have shaped := condition.writes.shaped
  unfold Clause.readComparison
  rw [three_parts]
  simp [path, keyword, shaped.oneLine, shaped.trimmed.trim]

theorem read_clause (position : Int) :
    Grammar.standard.readClause condition.written.toList position =
      some (condition.clause position) := by
  have isNull := condition.read_null_check .eq
  have isNotNull := condition.read_null_check .ne
  have compares := condition.read_comparison
  unfold Grammar.readClause clause operand operator
  rw [condition.trimmed.trim]
  simp only [Grammar.standard, Operator.all, List.findSome?_cons, Operator.read, compares]
  simp only [Comparison.keyword] at isNull isNotNull
  rw [isNull, isNotNull]
  cases condition.comparison <;> cases Clause.isNullWord condition.raw.toList <;> simp

theorem operator_exact (pattern : Pattern) : condition.operator ≠ .pattern pattern := by
  unfold operator
  split <;> simp

def predicate (rootAlias : String) (index : Nat) : Predicate :=
  .onColumn (rootAlias ++ "." ++ condition.column.label) condition.operator
    (condition.operand.map fun literal => ⟨placeholder index, literal⟩)

theorem scope_predicate (scope : Scope) (index : Nat) :
    scope.predicate (condition.clause index) index =
      .ok (condition.predicate scope.rootAlias index) := by
  have qualified := label_qualified condition.column scope.rootAlias
  unfold Scope.predicate clause predicate operand
  cases found : condition.operator with
  | isNull => simp [Operator.bind, qualified]
  | isNotNull => simp [Operator.bind, qualified]
  | comparison comparison =>
      simp [Operator.bind, qualified, condition.writes.reads]
  | pattern pattern => exact absurd found (condition.operator_exact pattern)

theorem label_is_path (column : UserColumn) : Identifier.isPath column.label = true := by
  cases column <;> decide

end Condition

def conjunction (conditions : List Condition) : String :=
  " and ".intercalate (conditions.map Condition.written)

/-- A filter option that asks for conditions; without conditions it may be missing. -/
def AsksFor (conditions : List Condition) (filter : Value) : Prop :=
  filter = .text (conjunction conditions) ∨ conditions = [] ∧ filter = .null

theorem fragments_joined {pieces : List String} (given : pieces ≠ [])
    (free : ∀ piece ∈ pieces, Text.occursIn separator (piece.toList ++ [' ']) = false) :
    Filter.fragments (" and ".intercalate pieces) = pieces := by
  have listed : pieces.map String.toList ≠ [] := by simpa using given
  have listedFree : ∀ piece ∈ pieces.map String.toList,
      Text.occursIn separator (piece ++ [' ']) = false := by
    intro piece member
    obtain ⟨text, known, rfl⟩ := List.mem_map.mp member
    exact free text known
  have split := Text.split_at_word_intercalate (by decide) listed listedFree
  unfold Filter.fragments
  rw [String.toList_intercalate]
  change (Text.splitAtText ' ' ("and".toList ++ [' ']) (separator.intercalate _)).map _ = _
  unfold separator
  rw [split, List.map_map]
  simp

theorem parts_joined {pieces : List String} (inked : "" ∉ pieces)
    (free : ∀ piece ∈ pieces, Text.occursIn separator (piece.toList ++ [' ']) = false) :
    (Value.text (" and ".intercalate pieces)).parts Filter.fragments = pieces := by
  by_cases given : pieces = []
  · subst given
    rfl
  · have alone : Filter.fragments "" = [""] := by simp [Filter.fragments, Text.splitAtText]
    exact Value.parts_of_pieces alone (fragments_joined given free) inked

theorem conjunction_parts {conditions : List Condition} {filter : Value}
    (asks : AsksFor conditions filter) :
    filter.parts Filter.fragments = conditions.map Condition.written := by
  rcases asks with rfl | ⟨rfl, rfl⟩
  · refine parts_joined ?_ ?_
    · intro member
      obtain ⟨condition, _, empty⟩ := List.mem_map.mp member
      exact condition.trimmed.ne_nil (congrArg String.toList empty)
    · intro piece member
      obtain ⟨condition, _, rfl⟩ := List.mem_map.mp member
      exact condition.written_free
  · rfl

def admitted (access : Access) (numbered : List (Condition × Nat)) : List (Condition × Nat) :=
  numbered.filter fun (condition, _) => access.allowsFilter condition.column.label

def predicatesOf (rootAlias : String) (numbered : List (Condition × Nat)) : List Predicate :=
  numbered.map fun (condition, index) => condition.predicate rootAlias index

theorem read_written (start : Nat) (conditions : List Condition) :
    Filter.readFragments .standard .lenient start (conditions.map Condition.written) =
      .ok ((conditions.zipIdx start).map fun (condition, index) => condition.clause index) := by
  induction conditions generalizing start with
  | nil => rfl
  | cons condition conditions induction =>
      have rest := induction (start + 1)
      rw [Int.natCast_add] at rest
      rw [List.map_cons, Filter.read_fragments_lenient, condition.read_clause]
      change (Filter.readFragments .standard .lenient ((start : Int) + (1 : Nat)) _).map _ = _
      rw [rest, List.zipIdx_cons]
      rfl

theorem resolve_written (scope : Scope) (lenient : scope.strictness = .lenient)
    (numbered : List (Condition × Nat)) :
    scope.resolveAll (numbered.map fun (condition, index) => condition.clause index) =
      .ok (predicatesOf scope.rootAlias (admitted scope.access numbered)) := by
  induction numbered with
  | nil => rfl
  | cons entry numbered induction =>
      obtain ⟨condition, index⟩ := entry
      have path := Condition.label_is_path condition.column
      have opens := admits_iff_opens scope.access.filterable condition.column.label
      have built := condition.scope_predicate scope index
      have authorised : (Identifier.isPath (condition.clause index).field = true ∧
          scope.access.filterable.Opens (condition.clause index).field) ↔
            scope.access.allowsFilter condition.column.label = true := by
        rw [Access.allowsFilter, opens]
        exact and_iff_right path
      unfold predicatesOf admitted at induction ⊢
      simp only [List.map_cons, Scope.resolveAll, induction, Scope.resolve_lenient scope lenient,
        authorised, List.filter_cons]
      by_cases allowed : scope.access.allowsFilter condition.column.label = true
      · have position : (condition.clause index).position = index := rfl
        simp only [allowed, if_true, List.map_cons, position, built]
        rfl
      · simp only [allowed, if_false, Bool.false_eq_true]
        rfl

theorem read_predicates_written {request : Request} {conditions : List Condition}
    (lenient : request.settings.strictness = .lenient)
    (asks : AsksFor conditions (request.option request.settings.filterKey)) :
    request.readPredicates =
      .ok (predicatesOf request.settings.rootAlias
        (admitted request.access conditions.zipIdx)) := by
  have read : Filter.readFragments .standard .lenient 0 (conditions.map Condition.written) =
      .ok (conditions.zipIdx.map fun (condition, index) => condition.clause index) :=
    read_written 0 conditions
  have resolved := resolve_written request.scope lenient conditions.zipIdx
  refine (request.read_predicates_iff _).mpr ⟨_, ?_, resolved⟩
  rw [Filter.read_eq_read_fragments, conjunction_parts asks, lenient]
  exact read

def writtenSort (sort : UserColumn × Direction) : String := sort.1.label ++ " " ++ sort.2.keyword

def sortKeysOf (sorts : List (UserColumn × Direction)) : List SortKey :=
  sorts.map fun (column, direction) => ⟨column.label, direction⟩

theorem sort_words (sort : UserColumn × Direction) :
    SortKey.ofWords? (Text.words (writtenSort sort).toList) = some ⟨sort.1.label, sort.2⟩ := by
  obtain ⟨column, direction⟩ := sort
  cases column <;> cases direction <;> decide +kernel

theorem sort_without_comma (sort : UserColumn × Direction) : ',' ∉ (writtenSort sort).toList := by
  obtain ⟨column, direction⟩ := sort
  cases column <;> cases direction <;> decide

theorem read_sorts_written {access : Access} {sorts : List (UserColumn × Direction)}
    (opened : ∀ sort ∈ sorts, access.allowsSort sort.1.label = true) :
    SortKey.read access .lenient (.text (",".intercalate (sorts.map writtenSort))) =
      .ok (sortKeysOf sorts) := by
  have pieces : Value.parts (fun text => Text.splitAtChar ',' text.toList)
      (.text (",".intercalate (sorts.map writtenSort))) =
        sorts.map fun sort => (writtenSort sort).toList := by
    by_cases given : sorts = []
    · subst given
      rfl
    · have alone : Text.splitAtChar ',' "".toList = [[]] := rfl
      refine Value.parts_of_pieces alone ?_ ?_
      · rw [String.toList_intercalate, List.map_map]
        refine Text.split_at_char_intercalate (by simpa using given) ?_
        intro piece member
        obtain ⟨sort, _, rfl⟩ := List.mem_map.mp member
        exact sort_without_comma sort
      · intro member
        obtain ⟨⟨column, direction⟩, _, empty⟩ := List.mem_map.mp member
        cases column <;> cases direction <;> cases empty
  have read : ∀ sort ∈ sorts, (SortKey.readEntry access (writtenSort sort).toList).toOption =
      some ⟨sort.1.label, sort.2⟩ := by
    intro sort member
    unfold SortKey.readEntry Access.requireSort
    rw [sort_words]
    simp only [opened sort member, if_true]
    rfl
  rw [SortKey.read_eq_read_entries, pieces, SortKey.read_entries_lenient, List.filterMap_map]
  apply congrArg Except.ok
  rw [sortKeysOf, ← List.filterMap_eq_map]
  exact List.filterMap_congr read

end Agreement

end QueryOptions
