/-!
Patterns with wildcards: `%` stands for any text, `_` for any one character, and every other
character for itself. A pattern matches a whole text.
-/

namespace QueryOptions.Like

/-- Which endings of the text, from the longest to the empty one, are matched by the wildcard `%`
before a rest that matches the marked endings: those that have a marked ending. -/
def skipAny : List Bool → List Bool
  | [] => []
  | matched :: shorter =>
      let rest := skipAny shorter
      (matched || rest.headD false) :: rest

def stepOver (fits : Char → Bool) : (text : List Char) → (marks : List Bool) → List Bool
  | [], _ => [false]
  | c :: text, marks =>
      (fits c && (marks.drop 1).headD false) :: stepOver fits text (marks.drop 1)

/-- For each ending of the text, from the whole text to the empty one, whether the pattern matches
it. One pass over the text per pattern character suffices, however many wildcards there are. -/
def matchingEndings (same : Char → Char → Bool) (text : List Char) : List Char → List Bool
  | [] => List.replicate text.length false ++ [true]
  | '%' :: pattern => skipAny (matchingEndings same text pattern)
  | '_' :: pattern => stepOver (fun _ => true) text (matchingEndings same text pattern)
  | c :: pattern => stepOver (same c) text (matchingEndings same text pattern)

def matchesWith (same : Char → Char → Bool) (pattern text : List Char) : Bool :=
  (matchingEndings same text pattern).headD false

def matchesExactly (pattern text : String) : Bool :=
  matchesWith (· == ·) pattern.toList text.toList

/-- ASCII letters match in either case. -/
def matchesIgnoringCase (pattern text : String) : Bool :=
  matchesWith (fun left right => left.toLower == right.toLower) pattern.toList text.toList

end QueryOptions.Like
