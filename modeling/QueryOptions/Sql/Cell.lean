import QueryOptions.Like
import QueryOptions.Literal
import QueryOptions.Number.Basic
import QueryOptions.Number.Reading
import QueryOptions.Operator
import QueryOptions.Value.Order

/-!
Cells of a table and how a statement compares them with bound literals. A column's kind decides how
an operand of another kind is taken: numeric text counts as a number beside integers, and a number
counts as its text beside texts. No comparison with null holds.
-/

namespace QueryOptions.Sql

inductive Cell where
  | null
  | integer (value : Int)
  | real (value : Binary64)
  | text (value : String)
  deriving DecidableEq, Repr, Inhabited

inductive ColumnKind where
  | integer | text
  deriving DecidableEq, Repr, Inhabited

namespace Cell

def isNull : Cell → Bool
  | .null => true
  | _ => false

def value : Cell → Value
  | .null => .null
  | .integer value => .integer value
  | .real value => .real value
  | .text value => .text value

def number? : Cell → Option Number
  | .integer value => some (.integer value)
  | .real value => some (.real value)
  | _ => none

/-- The cell that a literal is bound as. Booleans are numbers, and what is no number is null. -/
def ofLiteral : Literal → Cell
  | .text value => .text value
  | .integer value => .integer value
  | .real .nan => .null
  | .real value => .real value
  | .boolean value => .integer (if value then 1 else 0)
  | .null => .null

/-- Numbers that turn into text keep fifteen digits and a fraction. -/
def realLayout : DecimalLayout where
  leastPositional := -4
  firstScientific := 15
  keepsPoint := true
  infinity := "Inf"
  notANumber := ""

def realText (value : Binary64) : String :=
  String.ofList (realLayout.render (fun significand exponent =>
    let exact := Binary64.fraction false significand exponent
    Decimal.dropZeros 15 (Decimal.nearest 15 exact.1.toNat exact.2)) value)

def text? : Cell → Option String
  | .null => none
  | .integer value => some (toString value)
  | .real value => some (realText value)
  | .text value => some value

def isNumeralBlank (c : Char) : Bool := c = ' ' || (0x09 ≤ c.toNat && c.toNat ≤ 0x0d)

def trimNumeral (written : List Char) : List Char :=
  ((written.dropWhile isNumeralBlank).reverse.dropWhile isNumeralBlank).reverse

def fits (value : Int) : Bool := -Number.wordBound ≤ value && value < Number.wordBound

/-- The number that a text writes. A whole numeral that fits is an integer. -/
def ofNumeral? (written : String) : Option Cell :=
  (Numeral.read? (trimNumeral written.toList)).map fun numeral =>
    let whole : Int := if numeral.negative then -numeral.digits else numeral.digits
    if numeral.isWhole && fits whole then .integer whole else .real numeral.toBinary64

/-- An operand as a column of a kind takes it. -/
def convert (kind : ColumnKind) (operand : Cell) : Cell :=
  match kind, operand with
  | .integer, .text numeral => (ofNumeral? numeral).getD operand
  | .text, .integer _ | .text, .real _ => (operand.text?.map Cell.text).getD operand
  | _, _ => operand

/-- The place of a cell's class: null below numbers, numbers below texts. -/
def rank : Cell → Nat
  | .null => 0
  | .integer _ | .real _ => 1
  | .text _ => 2

def compare (left right : Cell) : Ordering :=
  match left, right with
  | .text leftText, .text rightText => Value.compareText leftText rightText
  | _, _ =>
      match left.number?, right.number? with
      | some leftNumber, some rightNumber => (leftNumber.compare? rightNumber).getD .eq
      | _, _ => Ord.compare left.rank right.rank

def holds (operator : Operator) (kind : ColumnKind) (cell operand : Cell) : Bool :=
  match operator with
  | .isNull => cell.isNull
  | .isNotNull => !cell.isNull
  | .comparison comparison =>
      !cell.isNull && !operand.isNull &&
        comparison.holds (some (cell.compare (operand.convert kind)))
  | .pattern _ =>
      match cell.text?, operand.text? with
      | some subject, some pattern => Like.matchesIgnoringCase pattern subject
      | _, _ => false

end Cell

end QueryOptions.Sql
