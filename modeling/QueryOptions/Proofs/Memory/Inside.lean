import Mathlib.Data.List.Forall2
import QueryOptions.Proofs.Memory.Filtered

/-!
Collections as their rows see them. What a collection tests and orders by are paths within its rows:
the alias of the root is cut off a field before a row is looked at. So two collections of the same
rows answer alike when the paths are the same, whatever alias each of them is asked under.
-/

namespace QueryOptions

namespace Memory

def pathUnder (rootAlias field : String) : String :=
  Collection.localPath { rows := [], rootAlias := rootAlias } field

def Condition.under (rootAlias : String) (condition : Condition) : Condition :=
  { condition with field := pathUnder rootAlias condition.field }

def Condition.inner (rootAlias : String) (predicate : Predicate) : Condition :=
  (ofPredicate predicate).under rootAlias

/-- A qualified field stands for the field itself, unless that starts with the alias. -/
theorem path_under_qualified {rootAlias field : String}
    (apart : ¬(rootAlias ++ ".").toList <+: field.toList) :
    pathUnder rootAlias (qualifyField field rootAlias) = field :=
  Collection.local_path_of_named { rows := [], rootAlias := rootAlias } (.inr ⟨rfl, apart⟩)

/-- A field that starts with the alias loses it although nothing was put before it. -/
example : pathUnder "address" (qualifyField "address.city" "address") = "city" := by decide

theorem path_alike {left right field : String} (leftApart : ¬(left ++ ".").toList <+: field.toList)
    (rightApart : ¬(right ++ ".").toList <+: field.toList) :
    pathUnder left (qualifyField field left) = pathUnder right (qualifyField field right) :=
  (path_under_qualified leftApart).trans (path_under_qualified rightApart).symm

namespace Collection

def innerConditions (collection : Collection) : List Condition :=
  collection.conditions.map (Condition.under collection.rootAlias)

def innerOrderings (collection : Collection) : List (String × Direction) :=
  collection.orderings.map fun ordering =>
    (pathUnder collection.rootAlias ordering.1, ordering.2)

/-- Collections of the same rows that test and order them by the same paths and cut out the same
page. -/
structure SameInside (left right : Collection) : Prop where
  rows : left.rows = right.rows
  conditions : left.innerConditions = right.innerConditions
  orderings : left.innerOrderings = right.innerOrderings
  limit : left.limit = right.limit
  offset : left.offset = right.offset

section Answers

variable [Attributes]

theorem matching_eq_inner (collection : Collection) :
    collection.matching = collection.rows.filter fun row =>
      collection.innerConditions.all fun condition =>
        holds condition.operator (resolve row condition.field) condition.operand := by
  unfold matching innerConditions
  refine List.filter_congr fun row _ => ?_
  rw [List.all_map]
  rfl

theorem ordered_eq_inner (collection : Collection) :
    collection.ordered = collection.innerOrderings.reverse.foldlM (fun rows ordering =>
      sortRows (fun row => resolve row ordering.1) ordering.2 rows) collection.matching := by
  unfold ordered innerOrderings
  rw [← List.map_reverse, List.foldlM_map]
  rfl

theorem is_testable_eq_inner (collection : Collection) :
    collection.isTestable = collection.rows.all fun row =>
      collection.innerConditions.foldr (fun condition rest =>
        Memory.isTestable condition.operator (resolve row condition.field) condition.operand &&
          (!holds condition.operator (resolve row condition.field) condition.operand || rest))
        true := by
  unfold isTestable innerConditions
  congr 1
  funext row
  rw [List.foldr_map]
  rfl

end Answers

end Collection

inductive SameCall (left right : String) : Call → Call → Prop where
  | predicate {first second : Predicate}
      (same : Condition.inner left first = Condition.inner right second) :
      SameCall left right (.addPredicate first) (.addPredicate second)
  | ordering {first second : String} (direction : Direction)
      (same : pathUnder left first = pathUnder right second) :
      SameCall left right (.addOrdering first direction) (.addOrdering second direction)
  | expansion (relation : String) :
      SameCall left right (.addExpansion relation) (.addExpansion relation)
  | limit (limit : Int) : SameCall left right (.setLimit limit) (.setLimit limit)
  | offset (offset : Int) : SameCall left right (.setOffset offset) (.setOffset offset)

abbrev SameCalls (left right : String) : List Call → List Call → Prop :=
  List.Forall₂ (SameCall left right)

namespace Collection

theorem receive_expansion (collection : Collection) (relation : String) :
    ∃ known, collection.receive (.addExpansion relation) =
      { collection with expansions := known } :=
  receive_expansions collection [relation]

theorem receive_root_alias (collection : Collection) (call : Call) :
    (collection.receive call).rootAlias = collection.rootAlias := by
  cases call with
  | addExpansion relation =>
      obtain ⟨known, received⟩ := collection.receive_expansion relation
      rw [received]
  | _ => rfl

theorem receive_all_root_alias (collection : Collection) (calls : List Call) :
    (calls.foldl receive collection).rootAlias = collection.rootAlias := by
  induction calls generalizing collection with
  | nil => rfl
  | cons call calls induction =>
      rw [List.foldl_cons, induction, receive_root_alias]

namespace SameInside

variable {left right : Collection} (same : SameInside left right)

include same

theorem execute [Attributes] : left.execute = right.execute := by
  have matching : left.matching = right.matching := by
    rw [matching_eq_inner, matching_eq_inner, same.rows, same.conditions]
  have ordered : left.ordered = right.ordered := by
    rw [ordered_eq_inner, ordered_eq_inner, same.orderings, matching]
  have testable : left.isTestable = right.isTestable := by
    rw [is_testable_eq_inner, is_testable_eq_inner, same.rows, same.conditions]
  have bounded (rows : List Value) : left.bounded rows = right.bounded rows := by
    unfold Collection.bounded
    rw [same.limit, same.offset]
  unfold Collection.execute
  simp only [testable, ordered, matching, bounded]

theorem receive {first second : Call}
    (calls : SameCall left.rootAlias right.rootAlias first second) :
    SameInside (left.receive first) (right.receive second) := by
  cases calls with
  | predicate sameCondition =>
      refine ⟨same.rows, ?_, same.orderings, same.limit, same.offset⟩
      have conditions := same.conditions
      unfold innerConditions at conditions ⊢
      unfold Condition.inner at sameCondition
      simp only [Collection.receive, addCondition, List.map_append, List.map_cons, List.map_nil,
        conditions, sameCondition]
  | ordering direction samePath =>
      refine ⟨same.rows, same.conditions, ?_, same.limit, same.offset⟩
      have orderings := same.orderings
      unfold innerOrderings at orderings ⊢
      simp only [Collection.receive, List.map_append, List.map_cons, List.map_nil, orderings,
        samePath]
  | expansion relation =>
      obtain ⟨leftKnown, leftReceived⟩ := left.receive_expansion relation
      obtain ⟨rightKnown, rightReceived⟩ := right.receive_expansion relation
      rw [leftReceived, rightReceived]
      exact ⟨same.rows, same.conditions, same.orderings, same.limit, same.offset⟩
  | limit limit => exact ⟨same.rows, same.conditions, same.orderings, rfl, same.offset⟩
  | offset offset => exact ⟨same.rows, same.conditions, same.orderings, same.limit, rfl⟩

/-- The induction is on both lists of calls at once; no call changes an alias. -/
theorem receive_all {firsts seconds : List Call}
    (calls : SameCalls left.rootAlias right.rootAlias firsts seconds) :
    SameInside (firsts.foldl Collection.receive left) (seconds.foldl Collection.receive right) := by
  induction firsts generalizing left right seconds with
  | nil =>
      cases calls
      exact same
  | cons first firsts induction =>
      cases calls with
      | cons head rest =>
          refine induction (same.receive head) ?_
          rwa [receive_root_alias, receive_root_alias]

end SameInside

end Collection

end Memory

end QueryOptions
