import QueryOptions.Literal
import QueryOptions.Settings
import QueryOptions.Text.Blank
import QueryOptions.Value.Text

/-!
Page bounds: how many rows are skipped and how many are taken. Bounds are read leniently, so that
anything but a whole number counts as zero, and a limit of zero means that there is none.
-/

namespace QueryOptions

structure Page where
  skip : Int
  limit : Int
  deriving DecidableEq, Repr, Inhabited

namespace Page

/-- Digits in which single underscores may stand between two digits; gives the digits alone. -/
def groupedDigits? : List Char → Option (List Char)
  | [] => none
  | [c] => if Text.isDigit c then some [c] else none
  | c :: next :: rest =>
      if !Text.isDigit c then none
      else if next = '_' then (groupedDigits? rest).map (c :: ·)
      else (groupedDigits? (next :: rest)).map (c :: ·)

def readInteger? (text : List Char) : Option Int :=
  let (negative, body) := match Text.trim text with
    | '-' :: rest => (true, rest)
    | '+' :: rest => (false, rest)
    | trimmed => (false, trimmed)
  match groupedDigits? body with
  | some digits =>
      if IntegerTooLong.limit < digits.length then none
      else
        let magnitude : Int := Text.digitsValue digits
        some (if negative then -magnitude else magnitude)
  | none => none

/-- A bound given as an option: never negative, zero for anything that is no whole number. -/
def bound : Value → Int
  | .null => 0
  | .boolean _ => 0
  | value => max 0 ((readInteger? value.plainText.toList).getD 0)

/-- A ceiling that is positive also bounds a page without a limit. -/
def clamp (ceiling : Option Int) (limit : Int) : Int :=
  match ceiling with
  | none => limit
  | some ceiling => if 0 < ceiling ∧ (limit = 0 ∨ ceiling < limit) then ceiling else limit

def optionValue (options : List (String × Value)) (key : String) : Value :=
  (Value.lookup key options).getD .null

/-- The page that the options ask for. -/
def read (options : List (String × Value)) (skipKey topKey : String) (ceiling : Option Int) :
    Page where
  skip := bound (optionValue options skipKey)
  limit := clamp ceiling (bound (optionValue options topKey))

def ofSettings (options : List (String × Value)) (settings : Settings) : Page :=
  read options settings.skipKey settings.topKey settings.maxTop

end Page

end QueryOptions
