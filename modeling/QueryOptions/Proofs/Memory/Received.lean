import QueryOptions.Memory.Collection
import QueryOptions.Proofs.Request.Bounds
import QueryOptions.Proofs.Request.Stages

/-!
What a request leaves in a collection. The calls of a request come in groups, each of which fills
one part of the collection, and bounds that are not negative cut out a page.
-/

namespace QueryOptions.Memory.Collection

theorem receive_predicates (collection : Collection) (predicates : List Predicate) :
    (predicates.map Call.addPredicate).foldl receive collection =
      { collection with
        conditions := collection.conditions ++ predicates.map Condition.ofPredicate } := by
  induction predicates generalizing collection with
  | nil => simp
  | cons predicate predicates induction =>
      rw [List.map_cons, List.foldl_cons, induction]
      simp [receive, addCondition]

theorem receive_orderings (collection : Collection) (orderings : List (String × Direction)) :
    (orderings.map fun ordering => Call.addOrdering ordering.1 ordering.2).foldl receive
        collection =
      { collection with orderings := collection.orderings ++ orderings } := by
  induction orderings generalizing collection with
  | nil => simp
  | cons ordering orderings induction =>
      rw [List.map_cons, List.foldl_cons, induction]
      simp [receive]

theorem receive_sorts (collection : Collection) (qualifier : String) (sorts : List SortKey) :
    (sorts.map fun sort =>
        Call.addOrdering (qualifyField sort.field qualifier) sort.direction).foldl receive
          collection =
      { collection with
        orderings := collection.orderings ++ sorts.map fun sort =>
          (qualifyField sort.field qualifier, sort.direction) } := by
  rw [← receive_orderings, List.map_map]
  rfl

theorem receive_page (collection : Collection) (page : Page) :
    (Request.pageCalls page).foldl receive collection =
      { collection with
        limit := if 0 < page.limit then some page.limit else collection.limit
        offset := if 0 < page.skip then some page.skip else collection.offset } := by
  unfold Request.pageCalls
  by_cases limited : 0 < page.limit
  · by_cases skipped : 0 < page.skip <;> simp [limited, skipped, receive]
  · by_cases skipped : 0 < page.skip <;> simp [limited, skipped, receive]

def requested (rows : List Value) (rootAlias qualifier : String) (predicates : List Predicate)
    (sorts : List SortKey) (page : Page) : Collection where
  rows := rows
  rootAlias := rootAlias
  conditions := predicates.map Condition.ofPredicate
  orderings := sorts.map fun sort => (qualifyField sort.field qualifier, sort.direction)
  limit := if 0 < page.limit then some page.limit else none
  offset := if 0 < page.skip then some page.skip else none

theorem receive_request (rows : List Value) (rootAlias : String) (request : Request)
    (predicates : List Predicate) (sorts : List SortKey) (page : Page) :
    (predicates.map Call.addPredicate ++ request.restCalls sorts [] page).foldl receive
        { rows := rows, rootAlias := rootAlias } =
      requested rows rootAlias request.settings.rootAlias predicates sorts page := by
  have calls : request.restCalls sorts [] page =
      (sorts.map fun sort =>
        .addOrdering (qualifyField sort.field request.settings.rootAlias) sort.direction) ++
          Request.pageCalls page := rfl
  rw [calls, List.foldl_append, receive_predicates, List.foldl_append, receive_sorts,
    receive_page]
  rfl

theorem position_of_nonneg {index : Int} (nonneg : 0 ≤ index) (length : Nat) :
    position length index = min length index.toNat := by
  unfold position
  rw [if_neg (by omega)]
  omega

theorem drop_position {α : Type} (rows : List α) (skip : Nat) :
    rows.drop (min rows.length skip) = rows.drop skip := by
  rcases Nat.le_total rows.length skip with past | within
  · rw [Nat.min_eq_left past, List.drop_length, List.drop_of_length_le past]
  · rw [Nat.min_eq_right within]

theorem slice_positions {α : Type} (rows : List α) (skip limit : Nat) :
    (rows.take (min rows.length (skip + limit))).drop (min rows.length skip) =
      (rows.drop skip).take limit := by
  rw [List.drop_take, drop_position, List.take_eq_take_iff, List.length_drop]
  omega

theorem bounded_eq_slice {collection : Collection} {page : Page} (skipNonneg : 0 ≤ page.skip)
    (limitNonneg : 0 ≤ page.limit)
    (limit : collection.limit = if 0 < page.limit then some page.limit else none)
    (offset : collection.offset = if 0 < page.skip then some page.skip else none)
    (rows : List Value) : collection.bounded rows = page.slice rows := by
  have start : collection.offset.getD 0 = page.skip := by
    rw [offset]
    split
    · rfl
    · rw [Option.getD_none]
      omega
  unfold bounded slice Page.slice
  dsimp only
  rw [start, limit, position_of_nonneg skipNonneg]
  by_cases limited : 0 < page.limit
  · have notZero : page.limit ≠ 0 := by omega
    have stop : (page.skip + page.limit).toNat = page.skip.toNat + page.limit.toNat :=
      Int.toNat_add skipNonneg limitNonneg
    simp only [limited, if_true, notZero, if_false]
    rw [position_of_nonneg (by omega), stop, slice_positions]
  · have zero : page.limit = 0 := by omega
    simp only [zero, Int.lt_irrefl, if_false, if_true]
    rw [List.take_length, drop_position]

section Testing

variable [Attributes]

theorem can_test_of_no_pattern (collection : Collection) (row : Value)
    {conditions : List Condition}
    (exact : ∀ condition ∈ conditions, ∀ pattern, condition.operator ≠ .pattern pattern) :
    collection.canTest row conditions = true := by
  induction conditions with
  | nil => rfl
  | cons condition rest induction =>
      obtain ⟨here, later⟩ := List.forall_mem_cons.mp exact
      have testable (field : Value) :
          Memory.isTestable condition.operator field condition.operand = true := by
        cases found : condition.operator with
        | pattern pattern => exact absurd found (here pattern)
        | _ => rfl
      change (_ && (_ || collection.canTest row rest)) = true
      rw [testable, induction later, Bool.or_true, Bool.and_true]

theorem is_testable_of_no_pattern {collection : Collection}
    (exact : ∀ condition ∈ collection.conditions, ∀ pattern,
      condition.operator ≠ .pattern pattern) : collection.isTestable = true :=
  List.all_eq_true.mpr fun row _ => collection.can_test_of_no_pattern row exact

theorem can_test_append (collection : Collection) (row : Value) (firsts seconds : List Condition) :
    collection.canTest row (firsts ++ seconds) =
      (collection.canTest row firsts &&
        (!firsts.all (collection.satisfies row) || collection.canTest row seconds)) := by
  induction firsts with
  | nil => rfl
  | cons condition firsts induction =>
      change (_ && (_ || collection.canTest row (firsts ++ seconds))) =
        ((_ && (_ || collection.canTest row firsts)) && _)
      rw [induction, List.all_cons]
      cases collection.satisfies row condition <;> simp [Bool.and_assoc]

end Testing

theorem local_path_of_root (collection : Collection) (name : String) :
    collection.localPath (collection.rootAlias ++ "." ++ name) = name := by
  have letters : (collection.rootAlias ++ "." ++ name).toList =
      collection.rootAlias.toList ++ ['.'] ++ name.toList := by simp
  unfold localPath
  rw [letters, Text.drop_prefix_append]
  exact String.ofList_toList

def ask (rows : List Value) (rootAlias : String) (access : Access) (settings : Settings)
    (options : List (String × Value)) : Session Collection where
  request := { options := options, access := access, settings := settings }
  backend := { rows := rows, rootAlias := rootAlias }

theorem ask_executes [Attributes] {rows : List Value} {rootAlias : String} {access : Access}
    {settings : Settings} {options : List (String × Value)} {predicates : List Predicate}
    {sorts : List SortKey}
    (readFilter : (ask rows rootAlias access settings options).request.readPredicates =
      .ok predicates)
    (readSort : (ask rows rootAlias access settings options).request.readSorts = .ok sorts)
    (readExpand : (ask rows rootAlias access settings options).request.readExpansions = .ok []) :
    (ask rows rootAlias access settings options).execute.2 =
      (requested rows rootAlias settings.rootAlias predicates sorts
        (Page.ofSettings options settings)).execute := by
  have applied := Request.apply_of_reads (ask rows rootAlias access settings options).request rfl
    readFilter readSort readExpand
  have received := receive_request rows rootAlias
    (ask rows rootAlias access settings options).request predicates sorts
    (Page.ofSettings options settings)
  unfold Session.execute Session.apply
  rw [applied]
  exact congrArg execute received

end QueryOptions.Memory.Collection
