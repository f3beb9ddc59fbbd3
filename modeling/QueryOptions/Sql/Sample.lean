import QueryOptions.Sql.Schema

/-!
A small database: six users with profiles and posts, and four orders with their lines.
-/

namespace QueryOptions.Sql.Sample

def optionalText : Option String → Cell
  | some text => .text text
  | none => .null

def optionalInteger : Option Int → Cell
  | some value => .integer value
  | none => .null

structure User where
  id : Int
  name : String
  age : Option Int
  email : Option String
  bio : Option String
  titles : List String

def users : List User := [
  ⟨1, "John", some 30, some "john@x.io", some "Painter", ["a", "b", "c"]⟩,
  ⟨2, "Jane", some 25, none, none, ["d"]⟩,
  ⟨3, "Johanna", some 41, some "jo@x.io", some "Writer", []⟩,
  ⟨4, "O'Brien; DROP TABLE users; --", none, none, none, []⟩,
  ⟨5, "bob", some 30, some "bob@y.io", none, ["a", "z"]⟩,
  ⟨6, "Émile 100%", some (-3), some "e_m@x.io", some "Painter", []⟩]

structure Order where
  region : String
  number : Int
  status : Option String
  skus : List String

def orders : List Order := [
  ⟨"eu", 1, some "open", ["s1", "s2"]⟩,
  ⟨"eu", 2, some "closed", []⟩,
  ⟨"us", 1, some "open", ["s1"]⟩,
  ⟨"us", 3, none, ["s3", "s4", "s5"]⟩]

/-- Rows of a detail table are numbered through, whatever they belong to. -/
def numbered (rows : List Row) : List Row :=
  rows.zipIdx.map fun (row, index) => Cell.integer (100 + index) :: row

def userRows : List Row := users.map fun user =>
  [.integer user.id, .text user.name, optionalInteger user.age, optionalText user.email]

def profileRows : List Row := users.filterMap fun user =>
  user.bio.map fun bio => [.integer (user.id * 10), .integer user.id, .text bio]

def postRows : List Row := numbered (users.flatMap fun user =>
  user.titles.map fun title => [.integer user.id, .text title])

def orderRows : List Row := orders.map fun order =>
  [.text order.region, .integer order.number, optionalText order.status]

def lineRows : List Row := numbered (orders.flatMap fun order =>
  order.skus.map fun sku => [.text order.region, .integer order.number, .text sku])

def database : Database where
  rows
    | "users" => userRows
    | "profiles" => profileRows
    | "posts" => postRows
    | "orders" => orderRows
    | "lines" => lineRows
    | _ => []

end QueryOptions.Sql.Sample
