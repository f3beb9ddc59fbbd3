import QueryOptions.Sql.Cell

/-!
Tables, the relations between them, and the entities that requests are made against. An entity is a
table with its key, the relations that can be expanded and the attributes that its rows show.
-/

namespace QueryOptions.Sql

structure Column where
  name : String
  kind : ColumnKind
  deriving DecidableEq, Repr, Inhabited

structure Table where
  name : String
  columns : List Column
  deriving DecidableEq, Repr, Inhabited

structure Relation where
  name : String
  target : Table
  isCollection : Bool
  /-- The pairs of a root column and a target column that agree on related rows. -/
  joinedOn : List (String × String)
  /-- The target column that stands for a related row. -/
  shown : String
  deriving DecidableEq, Repr, Inhabited

structure Entity where
  name : String
  table : Table
  key : List String
  relations : List Relation
  attributes : List (String × String)
  deriving DecidableEq, Repr, Inhabited

namespace Table

def users : Table where
  name := "users"
  columns := [⟨"id", .integer⟩, ⟨"name", .text⟩, ⟨"age", .integer⟩, ⟨"email", .text⟩]

def profiles : Table where
  name := "profiles"
  columns := [⟨"id", .integer⟩, ⟨"user_id", .integer⟩, ⟨"bio", .text⟩]

def posts : Table where
  name := "posts"
  columns := [⟨"id", .integer⟩, ⟨"user_id", .integer⟩, ⟨"title", .text⟩]

def orders : Table where
  name := "orders"
  columns := [⟨"region", .text⟩, ⟨"num", .integer⟩, ⟨"status", .text⟩]

def lines : Table where
  name := "lines"
  columns := [⟨"id", .integer⟩, ⟨"region", .text⟩, ⟨"number", .integer⟩, ⟨"sku", .text⟩]

end Table

namespace Entity

def user : Entity where
  name := "user"
  table := .users
  key := ["id"]
  relations := [
    { name := "profile", target := .profiles, isCollection := false
      joinedOn := [("id", "user_id")], shown := "bio" },
    { name := "posts", target := .posts, isCollection := true
      joinedOn := [("id", "user_id")], shown := "title" }]
  attributes := [("id", "id"), ("name", "name"), ("age", "age"), ("email", "email")]

def order : Entity where
  name := "order"
  table := .orders
  key := ["region", "num"]
  relations := [
    { name := "lines", target := .lines, isCollection := true
      joinedOn := [("region", "region"), ("num", "number")], shown := "sku" }]
  attributes := [("region", "region"), ("number", "num"), ("status", "status")]

def ofName? (name : String) : Option Entity := [user, order].find? fun entity => entity.name = name

def relation? (entity : Entity) (name : String) : Option Relation :=
  entity.relations.find? fun relation => relation.name = name

end Entity

/-- The cells of a row, in the order of its table's columns. -/
abbrev Row := List Cell

structure Database where
  rows : String → List Row

namespace Table

def columnIndex? (table : Table) (name : String) : Option Nat :=
  table.columns.findIdx? fun column => column.name = name

def cell (table : Table) (row : Row) (name : String) : Cell :=
  ((table.columnIndex? name).bind fun index => row[index]?).getD .null

end Table

end QueryOptions.Sql
