/-!
The length of integers in texts. Integers are computed at any size, but only those with at most 4300
digits are read from a text or written into one.
-/

namespace QueryOptions

structure IntegerTooLong where
  digits : Nat
  deriving DecidableEq, Repr, Inhabited

namespace IntegerTooLong

def limit : Nat := 4300

def message (failure : IntegerTooLong) : String :=
  s!"Exceeds the limit ({limit} digits) for integer string conversion: " ++
    s!"value has {failure.digits} digits; " ++
    "use sys.set_int_max_str_digits() to increase the limit"

end IntegerTooLong

/-- An integer with more digits than the limit has no text. Its digits are not counted. -/
structure Unwritable where
  deriving DecidableEq, Repr, Inhabited

def Unwritable.message (_ : Unwritable) : String :=
  s!"Exceeds the limit ({IntegerTooLong.limit} digits) for integer string conversion; " ++
    "use sys.set_int_max_str_digits() to increase the limit"

end QueryOptions
