import QueryOptions.Call
import QueryOptions.Sql.Schema
import QueryOptions.Text.Word

/-!
Selections: what a request asks of an entity, before it becomes a statement. Relations that the
entity does not have are ignored, and a relation is joined once. When a page is asked for and a
collection is joined, joined rows repeat their root, so the page is cut over the keys instead.
-/

namespace QueryOptions.Sql

structure Selection where
  entity : Entity
  rootAlias : String := "entity"
  predicates : List Predicate := []
  orderings : List (String × Direction) := []
  joins : List Relation := []
  limit : Option Int := none
  offset : Option Int := none
  deriving Repr, Inhabited

namespace Selection

def expand (selection : Selection) (name : String) : Selection :=
  match selection.entity.relation? name with
  | none => selection
  | some relation =>
      if selection.joins.contains relation then selection
      else { selection with joins := selection.joins ++ [relation] }

/-- A placeholder ends at the first character that belongs to no word. -/
def isPlaceholder (name : String) : Bool := name.toList.all Text.isWord

def addPredicate (selection : Selection) (predicate : Predicate) : Except Failure Selection :=
  let extended := { selection with predicates := selection.predicates ++ [predicate] }
  match predicate.binding with
  | none => .ok extended
  | some binding =>
      if isPlaceholder binding.name then .ok extended
      else .error (.unreadablePlaceholder binding.name)

/-- A request numbers its placeholders from zero, so their literals can always be bound. -/
def receive (selection : Selection) : Call → Selection
  | .addPredicate predicate =>
      { selection with predicates := selection.predicates ++ [predicate] }
  | .addOrdering field direction =>
      { selection with orderings := selection.orderings ++ [(field, direction)] }
  | .addExpansion relation => selection.expand relation
  | .setLimit limit => { selection with limit := some limit }
  | .setOffset offset => { selection with offset := some offset }

def isPaged (selection : Selection) : Bool := selection.limit.isSome || selection.offset.isSome

/-- Whether the page is cut over the keys of the roots and not over the joined rows. -/
def pagesKeys (selection : Selection) : Bool :=
  selection.isPaged && selection.joins.any (·.isCollection)

/-- The bound literals by name. Of two literals under one name the later one counts. -/
def bindings (selection : Selection) : List Binding :=
  (selection.predicates.filterMap (·.binding)).foldl (fun bindings binding =>
    bindings.filter (fun earlier => earlier.name ≠ binding.name) ++ [binding]) []

def bounds (selection : Selection) : List Int := selection.limit.toList ++ selection.offset.toList

end Selection

end QueryOptions.Sql
