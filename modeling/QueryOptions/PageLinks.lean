import QueryOptions.Envelope
import QueryOptions.QueryString

/-!
Links from one page to others. A link keeps the filter, the order and the expansion of the request
and replaces its bounds. There are no links when pages hold no rows. One link that cannot be written
is enough for none of them to be given.
-/

namespace QueryOptions

structure PageLinks where
  first : Option String := none
  prev : Option String := none
  next : Option String := none
  last : Option String := none
  deriving DecidableEq, Repr, Inhabited

namespace PageLinks

/-- The link to a page, counted from one. -/
def link (settings : Settings) (options : List (String × Value)) (baseUrl : String)
    (perPage page : Int) : Except Unwritable String := do
  let query ← QueryString.build settings options (some ((page - 1) * perPage)) (some perPage)
  return if query.isEmpty then baseUrl else baseUrl ++ "?" ++ query

/-- The page before the current one, or the last one when the current one is behind it. -/
def prevPage? (envelope : Envelope) : Option Int :=
  if 1 < envelope.currentPage then
    some (min (envelope.currentPage - 1) (max envelope.lastPage 1))
  else none

def nextPage? (envelope : Envelope) : Option Int :=
  if envelope.currentPage < max envelope.lastPage 1 then some (envelope.currentPage + 1) else none

def build (settings : Settings) (options : List (String × Value)) (envelope : Envelope)
    (baseUrl : String) : Except Unwritable PageLinks :=
  if envelope.perPage ≤ 0 then .ok {}
  else do
    let linkTo := link settings options baseUrl envelope.perPage
    let first ← linkTo 1
    let last ← linkTo (max envelope.lastPage 1)
    let prev ← (prevPage? envelope).mapM linkTo
    let next ← (nextPage? envelope).mapM linkTo
    return { first := some first, prev, next, last := some last }

end PageLinks

end QueryOptions
