/-!
Closed ranges of code points, the form in which the character tables of this library are kept.
-/

namespace QueryOptions.Text

abbrev CodeRange := Nat × Nat

def CodeRange.contains (range : CodeRange) (c : Char) : Bool :=
  range.1 ≤ c.toNat && c.toNat ≤ range.2

def inRanges (ranges : List CodeRange) (c : Char) : Bool :=
  ranges.any fun range => range.contains c

end QueryOptions.Text
