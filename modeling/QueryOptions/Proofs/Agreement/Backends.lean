import QueryOptions.Proofs.Agreement.Collections
import QueryOptions.Proofs.Agreement.Tables

/-!
The two backends agree. Whatever a lenient request asks of users by typed comparisons, a collection
in memory and a store over a table of the same users give one answer.
-/

namespace QueryOptions.Agreement

open Sql (Database Store)
open Memory (Collection)

variable {database : Database} {users : List UserRecord} {access : Access} {settings : Settings}
  {options : List (String × Value)} {conditions : List Condition}
  {sorts : List (UserColumn × Direction)}

/-- Users that are told apart by their keys come back the same from a collection and from a store:
the same ones in the same order, and the same total. -/
theorem backends_agree [Memory.Attributes]
    (tableRows : database.rows "users" = users.map UserRecord.row)
    (distinct : (users.map UserRecord.id).Nodup)
    (asks : Asks access settings options conditions sorts) :
    ∃ answer,
      (Collection.ask (users.map UserRecord.value) "entity" access settings options).execute.2 =
        .ok answer ∧
      (Store.ask database .user "entity" access settings options).execute.2 = .ok answer :=
  ⟨_, collection_answers asks, store_answers tableRows distinct asks⟩

attribute [local instance] Memory.Attributes.bare in
/-- Four users, one without a name and one without an age, and the page behind the first. -/
theorem sample_backends_agree :
    let users : List UserRecord := [⟨1, some "John", some 30, none⟩, ⟨2, none, some 41, none⟩,
      ⟨3, some "bob", some 30, some "bob@y.io"⟩, ⟨4, some "Jane", none, none⟩]
    let options := [("$filter", Value.text "age ge -3 and name ne 'Jane'"),
      ("$orderby", .text "age DESC,id ASC"), ("$top", .text "2"), ("$skip", .text "1")]
    ∃ answer,
      (Collection.ask (users.map UserRecord.value) "entity" {} {} options).execute.2 =
        .ok answer ∧
      (Store.ask (usersOnly users) .user "entity" {} {} options).execute.2 = .ok answer := by
  intro users options
  let byAge : Condition := ⟨.age, .ge, "-3", .integer (-3),
    .integer rfl (ok_of_to_option (by decide +kernel)) (by decide)⟩
  let byName : Condition := ⟨.name, .ne, "'Jane'", .text (String.ofList "Jane".toList),
    .text rfl (.inl rfl) rfl (by decide) (by decide)⟩
  have opened : ∀ sort ∈ [(UserColumn.age, Direction.descending), (.id, .ascending)],
      Access.allowsSort {} sort.1.label = true := fun _ _ => rfl
  have asks : Asks {} {} options [byAge, byName] [(.age, .descending), (.id, .ascending)] :=
    { lenient := rfl
      ofRoot := rfl
      filter := .inl rfl
      orderby := read_sorts_written opened
      byId := ⟨.ascending, by decide⟩
      expand := rfl
      limitFits := by decide +kernel
      skipFits := by decide +kernel }
  exact backends_agree rfl (by decide) asks

end QueryOptions.Agreement
