import QueryOptions.Rejection

/-!
Reading a list of parts under one of two policies. Lenient reading drops what it cannot use; strict
reading stops at the first such part and says why.
-/

namespace QueryOptions

inductive Strictness where
  | lenient | strict
  deriving DecidableEq, Repr, Inhabited

namespace Strictness

def ofBool (isStrict : Bool) : Strictness := if isStrict then .strict else .lenient

def refuse {α : Type} (strictness : Strictness) (rejection : Rejection) :
    Except Rejection (Option α) :=
  match strictness with
  | .lenient => .ok none
  | .strict => .error rejection

def settle {α : Type} (strictness : Strictness) : Except Rejection α → Except Rejection (Option α)
  | .ok part => .ok (some part)
  | .error rejection => strictness.refuse rejection

end Strictness

end QueryOptions
