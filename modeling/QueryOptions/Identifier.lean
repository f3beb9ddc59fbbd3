import QueryOptions.Text.Split
import QueryOptions.Text.Word

/-!
Field names: paths of segments separated by points. A segment is a letter or an underscore followed
by word characters, where the first character is an ASCII letter.
-/

namespace QueryOptions.Identifier

def isStart (c : Char) : Bool := c.isAlpha || c == '_'

/-- The first characters of a segment where letter case is ignored: besides the ASCII letters, the
four letters that share a case with one of them. -/
def isCaselessStart (c : Char) : Bool :=
  isStart c || c == '\u0130' || c == '\u0131' || c == '\u017f' || c == '\u212a'

def isSegment (start : Char → Bool) : List Char → Bool
  | [] => false
  | first :: others => start first && others.all Text.isWord

def isPathFrom (start : Char → Bool) (name : List Char) : Bool :=
  (Text.splitAtChar '.' name).all (isSegment start)

def isPath (name : String) : Bool := isPathFrom isStart name.toList

def isSimple (name : String) : Bool := isPath name && !name.toList.contains '.'

end QueryOptions.Identifier
