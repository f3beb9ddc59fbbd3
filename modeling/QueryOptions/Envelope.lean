import QueryOptions.Page

/-!
Envelopes: one page of rows with the numbers that describe it. An envelope is computed from a page
and a total, or read from named values; once made it never changes.
-/

namespace QueryOptions

structure Envelope where
  data : List Value := []
  total : Int := 0
  perPage : Int := 0
  currentPage : Int := 1
  lastPage : Int := 1
  /-- The position of the first row of the page, counted from one; zero when nothing matches. -/
  first : Int := 0
  last : Int := 0
  deriving Repr, Inhabited

namespace Envelope

def pageCount (total perPage : Int) : Int := -Int.fdiv (-total) perPage

/-- The envelope of a page. Without a limit the page is the only one and holds all rows. -/
def build (rows : List Value) (total skip limit : Int) : Envelope :=
  let isPaged := 0 < limit
  { data := rows
    total := total
    perPage := if isPaged then limit else total
    currentPage := if isPaged then Int.fdiv skip limit + 1 else 1
    lastPage := if isPaged then pageCount total limit else 1
    first := if total = 0 then 0 else skip + 1
    last := if total = 0 then 0 else skip + rows.length }

inductive Flaw where
  | notAList
  | notAnInteger
  | unreadableInteger
  | fractionalInteger
  | notFinite
  | frozen
  deriving DecidableEq, Repr, Inhabited

namespace Flaw

def code : Flaw → String
  | .notAList => "list_type"
  | .notAnInteger => "int_type"
  | .unreadableInteger => "int_parsing"
  | .fractionalInteger => "int_from_float"
  | .notFinite => "finite_number"
  | .frozen => "frozen_instance"

end Flaw

structure Defect where
  name : String
  flaw : Flaw
  deriving DecidableEq, Repr, Inhabited

def readList : Value → Except Flaw (List Value)
  | .list items => .ok items
  | _ => .error .notAList

def dropZeroFraction (text : List Char) : List Char :=
  match text.dropWhile (· ≠ '.') with
  | '.' :: fraction => if fraction.all (· = '0') then text.takeWhile (· ≠ '.') else text
  | _ => text

/-- An integer written with ASCII digits; a fraction of zeros may follow. -/
def readIntegerText? (text : String) : Option Int :=
  let trimmed := Text.trim text.toList
  if trimmed.all (·.toNat < 128) then Page.readInteger? (dropZeroFraction trimmed) else none

/-- The integer that a floating-point number equals, when it fits into 64 bits. -/
def readWhole (value : Binary64) : Except Flaw Int :=
  match value with
  | .finite .. =>
      match value.integer? with
      | some integer =>
          if -Number.wordBound < integer ∧ integer < Number.wordBound then .ok integer
          else .error .fractionalInteger
      | none => .error .fractionalInteger
  | _ => .error .notFinite

/-- Integers are also given as booleans, as numbers without a fraction and as text. -/
def readInteger : Value → Except Flaw Int
  | .boolean value => .ok (if value then 1 else 0)
  | .integer value => .ok value
  | .real value => readWhole value
  | .text text =>
      match readIntegerText? text with
      | some integer => .ok integer
      | none => .error .unreadableInteger
  | _ => .error .notAnInteger

/-- Reads the value under the first of some names that is given, or keeps the default. -/
def readUnder {α : Type} (fields : List (String × Value)) (names : List String) (default : α)
    (read : Value → Except Flaw α) : α × List Defect :=
  match names.findSome? fun name => (Value.lookup name fields).map fun value => (name, value) with
  | none => (default, [])
  | some (name, value) =>
      match read value with
      | .ok part => (part, [])
      | .error flaw => (default, [⟨name, flaw⟩])

/-- Reads an envelope from named values. All defects are reported, in the order of the parts. -/
def ofFields (fields : List (String × Value)) : Except (List Defect) Envelope :=
  let empty : Envelope := {}
  let (data, dataDefects) := readUnder fields ["data"] empty.data readList
  let (total, totalDefects) := readUnder fields ["total"] empty.total readInteger
  let (perPage, perPageDefects) := readUnder fields ["per_page"] empty.perPage readInteger
  let (currentPage, currentDefects) :=
    readUnder fields ["current_page"] empty.currentPage readInteger
  let (lastPage, lastPageDefects) := readUnder fields ["last_page"] empty.lastPage readInteger
  let (first, firstDefects) := readUnder fields ["from", "from_"] empty.first readInteger
  let (last, lastDefects) := readUnder fields ["to"] empty.last readInteger
  let defects := dataDefects ++ totalDefects ++ perPageDefects ++ currentDefects ++
    lastPageDefects ++ firstDefects ++ lastDefects
  if defects.isEmpty then .ok { data, total, perPage, currentPage, lastPage, first, last }
  else .error defects

def assign (_ : Envelope) (name : String) (_ : Value) : Except Defect Envelope :=
  .error ⟨name, .frozen⟩

end Envelope

end QueryOptions
