import QueryOptions.Page

/-!
Query strings: options in the form that a link carries. Pairs are joined by `&`, names and values by
`=`; a blank is written `+`, and every byte that is neither unreserved nor the dollar sign becomes
a percent escape, so no `&`, `=` or `+` of a name or value is left to be mistaken for a separator.
-/

namespace QueryOptions.QueryString

/-- The characters that stand for themselves. The dollar sign is one, since it opens option names. -/
def isPlain (c : Char) : Bool :=
  c.isAlphanum || c == '_' || c == '.' || c == '-' || c == '~' || c == '$'

def hexDigit (value : Nat) : Char :=
  if value < 10 then Char.ofNat (value + 0x30) else Char.ofNat (value + 0x37)

def escapeByte (byte : UInt8) : List Char :=
  ['%', hexDigit (byte.toNat / 16), hexDigit (byte.toNat % 16)]

def encodeChar (c : Char) : List Char :=
  if isPlain c then [c]
  else if c = ' ' then ['+']
  else (String.utf8EncodeChar c).flatMap escapeByte

def encode (text : String) : String := String.ofList (text.toList.flatMap encodeChar)

def encodePair (pair : String × String) : String := encode pair.1 ++ "=" ++ encode pair.2

def encodePairs (pairs : List (String × String)) : String :=
  "&".intercalate (pairs.map encodePair)

/-- Sets a name: a name that is already present keeps its place and takes the new value. -/
def assign (pairs : List (String × Value)) (name : String) (value : Value) :
    List (String × Value) :=
  if pairs.any fun pair => pair.1 = name then
    pairs.map fun pair => if pair.1 = name then (name, value) else pair
  else pairs ++ [(name, value)]

def assignGiven (pairs : List (String × Value)) (name : String) (value : Value) :
    List (String × Value) :=
  if value.isTruthy then assign pairs name value else pairs

/-- The pairs of a request: filter, order and expansion as given, then the bounds. Bounds that are
not given are taken from the options. -/
def parameters (settings : Settings) (options : List (String × Value)) (skip top : Option Int) :
    List (String × Value) :=
  let given := [settings.filterKey, settings.orderbyKey, settings.expandKey].foldl
    (fun pairs key => assignGiven pairs key (Page.optionValue options key)) []
  let top := top.getD (Page.bound (Page.optionValue options settings.topKey))
  let skip := skip.getD (Page.bound (Page.optionValue options settings.skipKey))
  assignGiven (assignGiven given settings.topKey (.integer top)) settings.skipKey (.integer skip)

/-- The pairs as they are written, empty when there is nothing to say. -/
def written (settings : Settings) (options : List (String × Value)) (skip top : Option Int) :
    String :=
  encodePairs ((parameters settings options skip top).map fun pair =>
    (pair.1, pair.2.plainText))

/-- The query string of a request, which exists when all its values have a text. -/
def build (settings : Settings) (options : List (String × Value)) (skip top : Option Int) :
    Except Unwritable String :=
  if (parameters settings options skip top).all fun pair => pair.2.isWritable then
    .ok (written settings options skip top)
  else .error {}

end QueryOptions.QueryString
