/-!
Names in statements. Where a statement is composed, an alias that could be misread is quoted; in
the text of predicates and orderings names stand as they are, so there the engine must be able to
read them.
-/

namespace QueryOptions.Sql.Name

/-- Words that are quoted when they are used as an alias. -/
def quotedWords : List String := [
  "all", "analyse", "analyze", "and", "any", "array", "as", "asc", "asymmetric", "authorization",
  "between", "binary", "both", "case", "cast", "check", "collate", "column", "constraint",
  "create", "cross", "current_date", "current_role", "current_time", "current_timestamp",
  "current_user", "default", "deferrable", "desc", "distinct", "do", "else", "end", "except",
  "false", "for", "foreign", "freeze", "from", "full", "grant", "group", "having", "ilike", "in",
  "initially", "inner", "intersect", "into", "is", "isnull", "join", "leading", "left", "like",
  "limit", "localtime", "localtimestamp", "natural", "new", "not", "notnull", "null", "off",
  "offset", "old", "on", "only", "or", "order", "outer", "overlaps", "placing", "primary",
  "references", "right", "select", "session_user", "set", "similar", "some", "symmetric", "table",
  "then", "to", "trailing", "true", "union", "unique", "user", "using", "verbose", "when", "where"]

/-- Letters that count as plain because they share a case with an ASCII letter. -/
def isCaseKin (c : Char) : Bool := c == '\u0131' || c == '\u017f'

def isPlainChar (c : Char) : Bool := c.isAlphanum || c == '_' || c == '$' || isCaseKin c

/-- An alias needs quotes if it is a reserved word, has an upper-case letter, or is no plain
name. -/
def needsQuotes (name : String) : Bool :=
  match name.toList with
  | [] => true
  | first :: others =>
      quotedWords.contains (String.ofList (name.toList.map Char.toLower)) ||
        first.isDigit || first == '$' || !(first :: others).all isPlainChar ||
        (first :: others).any Char.isUpper

/-- A name as it is written in a composed statement. A quote inside is written twice. -/
def composed (name : String) : String :=
  if needsQuotes name then
    String.ofList ('"' :: (name.toList.flatMap fun c => if c = '"' then [c, c] else [c]) ++ ['"'])
  else name

/-- Words that the engine never reads as names. -/
def engineWords : List String := [
  "add", "all", "alter", "and", "as", "autoincrement", "between", "case", "check", "collate",
  "commit", "constraint", "create", "default", "deferrable", "delete", "distinct", "drop", "else",
  "escape", "except", "exists", "foreign", "from", "group", "having", "in", "index", "insert",
  "intersect", "into", "is", "isnull", "join", "limit", "not", "nothing", "notnull", "null", "on",
  "or", "order", "primary", "references", "returning", "select", "set", "table", "then", "to",
  "transaction", "union", "unique", "update", "using", "values", "when", "where"]

def isReadable (name : List Char) : Bool :=
  match name with
  | [] => false
  | first :: others =>
      (first.isAlpha || first == '_' || 0x80 ≤ first.toNat) &&
        others.all (fun c => c.isAlphanum || c == '_' || c == '$' || 0x80 ≤ c.toNat) &&
        !engineWords.contains (String.ofList (name.map Char.toLower))

/-- The engine compares names without regard to the case of ASCII letters. -/
def same (left right : String) : Bool :=
  left.toList.map Char.toLower = right.toList.map Char.toLower

end QueryOptions.Sql.Name
