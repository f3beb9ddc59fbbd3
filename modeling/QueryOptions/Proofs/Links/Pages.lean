import Mathlib.Data.Rat.Floor
import QueryOptions.PageLinks
import QueryOptions.Proofs.Links.Writable

/-!
The pages that links lead to. Pages of one size, put end to end, hold every item once; the link to a
page asks for that page, and following it keeps the size, whatever fixed the size at first.
-/

namespace QueryOptions

namespace Envelope

theorem page_count_eq_ceil {perPage : Int} (positive : 0 < perPage) (total : Int) :
    pageCount total perPage = ⌈(total : ℚ) / perPage⌉ := by
  obtain ⟨size, rfl⟩ := Int.eq_ofNat_of_zero_le (Int.le_of_lt positive)
  unfold pageCount
  rw [Int.fdiv_eq_ediv_of_nonneg _ (Int.natCast_nonneg size), Int.cast_natCast,
    Rat.ceil_intCast_div_natCast]

/-- A page is not the last one as long as the pages up to it hold less than there is. -/
theorem before_page_count {perPage : Int} (positive : 0 < perPage) (total page : Int) :
    page < pageCount total perPage ↔ page * perPage < total := by
  have divided : -total / perPage < -page ↔ -total < -page * perPage :=
    Int.ediv_lt_iff_lt_mul positive
  unfold pageCount
  rw [Int.fdiv_eq_ediv_of_nonneg _ (Int.le_of_lt positive)]
  rw [Int.neg_mul] at divided
  constructor
  · intro before
    have scaled := divided.mp (by omega)
    omega
  · intro less
    have quotient := divided.mpr (by omega)
    omega

theorem page_count_self {total : Int} (positive : 0 < total) : pageCount total total = 1 := by
  have some := before_page_count positive total 0
  have one := before_page_count positive total 1
  omega

theorem current_page_counted (rows : List Value) {total skip limit : Int} (skipNonneg : 0 ≤ skip)
    (limitNonneg : 0 ≤ limit) : 1 ≤ (build rows total skip limit).currentPage := by
  have turned := Int.fdiv_nonneg skipNonneg limitNonneg
  unfold build
  dsimp only
  split <;> omega

section Positive

variable (rows : List Value) {total skip limit : Int}
  (positive : 0 < (build rows total skip limit).perPage)

include positive

/-- Without a limit there is one page, and that is how many pages of all rows there are. -/
theorem last_page_counts :
    (build rows total skip limit).lastPage =
      pageCount total (build rows total skip limit).perPage := by
  unfold build at positive ⊢
  by_cases limited : 0 < limit
  · simp only [limited, if_true]
  · simp only [limited, if_false] at positive ⊢
    exact (page_count_self positive).symm

theorem known_page_starts {page : Int} (counted : 1 ≤ page)
    (known : page ≤ max 1 (build rows total skip limit).lastPage) :
    (page - 1) * (build rows total skip limit).perPage = 0 ∨
      (page - 1) * (build rows total skip limit).perPage < total := by
  rcases Int.le_iff_eq_or_lt.mp counted with first | later
  · rw [← first]
    exact .inl (Int.zero_mul _)
  · rw [last_page_counts rows positive] at known
    exact .inr ((before_page_count positive total (page - 1)).mp (by omega))

theorem last_page_starts_short (fits : total < (10 ^ IntegerTooLong.limit : Nat)) :
    (max (build rows total skip limit).lastPage 1 - 1) * (build rows total skip limit).perPage <
      (10 ^ IntegerTooLong.limit : Nat) := by
  rcases known_page_starts rows positive (Int.le_max_right _ 1)
    (Int.le_of_eq (Int.max_comm _ _)) with top | among
  · rw [top]
    exact IntegerTooLong.bound_positive
  · exact Int.lt_trans among fits

end Positive

end Envelope

namespace Page

theorem pages_append {α : Type} (items : List α) (size count : Nat) :
    (List.range count).flatMap (fun index => (items.drop (index * size)).take size) =
      items.take (count * size) := by
  induction count with
  | zero => rw [Nat.zero_mul, List.take_zero, List.range_zero, List.flatMap_nil]
  | succ count induction =>
      rw [List.range_succ, List.flatMap_append, induction, List.flatMap_singleton,
        Nat.succ_mul, List.take_add]

/-- A page size that was settled once, be it from the option, the ceiling or the number of rows, is
settled in the same way again. -/
theorem clamp_settled (ceiling : Option Int) {bound total : Int} (boundNonneg : 0 ≤ bound)
    (boundSmall : bound < (10 ^ IntegerTooLong.limit : Nat))
    (totalSmall : total < (10 ^ IntegerTooLong.limit : Nat)) {perPage : Int}
    (settled : perPage = if 0 < clamp ceiling bound then clamp ceiling bound else total)
    (positive : 0 < perPage) :
    clamp ceiling (QueryString.broughtBack perPage) = perPage := by
  unfold QueryString.broughtBack
  -- Only that both numbers stay below the limit counts, not how large it is.
  generalize ((10 ^ IntegerTooLong.limit : Nat) : Int) = tooLong at *
  unfold clamp at *
  cases ceiling with
  | none => grind
  | some ceiling => grind

end Page

namespace PageLinks

def query? (baseUrl link : String) : Option String :=
  (Text.dropPrefix? (baseUrl.toList ++ ['?']) link.toList).map String.ofList

/-- The options that a link asks for. -/
def target? (baseUrl link : String) : Option (List (String × Value)) :=
  (query? baseUrl link).bind QueryString.optionsOf

theorem query_of_joined (baseUrl query : String) :
    query? baseUrl (baseUrl ++ "?" ++ query) = some query := by
  have letters : (baseUrl ++ "?" ++ query).toList = baseUrl.toList ++ ['?'] ++ query.toList := by
    simp
  rw [query?, letters, Text.drop_prefix_append, Option.map_some, String.ofList_toList]

section Written

variable (settings : Settings) (options : List (String × Value)) (baseUrl : String)

def HasLink (perPage page : Int) : Prop :=
  ∃ query,
    QueryString.build settings options (some ((page - 1) * perPage)) (some perPage) = .ok query

def writtenLink (perPage page : Int) : String :=
  baseUrl ++ "?" ++
    QueryString.written settings options (some ((page - 1) * perPage)) (some perPage)

/-- The links of an envelope whose pages hold rows, as they are when all of them can be written. -/
def writtenLinks (envelope : Envelope) : PageLinks :=
  let linkTo := writtenLink settings options baseUrl envelope.perPage
  { first := some (linkTo 1)
    prev := (prevPage? envelope).map linkTo
    next := (nextPage? envelope).map linkTo
    last := some (linkTo (max envelope.lastPage 1)) }

theorem target_of_query (perPage page : Int) :
    target? baseUrl (writtenLink settings options baseUrl perPage page) =
      QueryString.optionsOf
        (QueryString.written settings options (some ((page - 1) * perPage)) (some perPage)) := by
  rw [writtenLink, target?, query_of_joined, Option.bind_some]

variable {perPage : Int} (positive : 0 < perPage) (page : Int)

include positive

/-- The link to a page always has a query. -/
theorem link_eq_ok_iff {text : String} :
    link settings options baseUrl perPage page = .ok text ↔
      HasLink settings options perPage page ∧
        text = writtenLink settings options baseUrl perPage page := by
  have given := QueryString.written_nonempty settings options (some ((page - 1) * perPage)) positive
  unfold link
  rw [bind_eq_ok_iff]
  constructor
  · rintro ⟨query, built, same⟩
    obtain ⟨_, rfl⟩ := QueryString.build_eq_ok_iff.mp built
    rw [if_neg (by simpa using given)] at same
    exact ⟨⟨_, built⟩, (Except.ok.inj same).symm⟩
  · rintro ⟨⟨query, built⟩, rfl⟩
    refine ⟨query, built, ?_⟩
    obtain ⟨_, rfl⟩ := QueryString.build_eq_ok_iff.mp built
    rw [if_neg (by simpa using given)]
    rfl

theorem optional_link_eq_ok_iff (page? : Option Int) {target : Option String} :
    page?.mapM (link settings options baseUrl perPage) = .ok target ↔
      (∀ page ∈ page?, HasLink settings options perPage page) ∧
        target = page?.map (writtenLink settings options baseUrl perPage) := by
  cases page? with
  | none =>
      rw [Option.mapM_none]
      simp [pure, Except.pure, eq_comm]
  | some page =>
      rw [Option.mapM_some, map_eq_pure_bind, bind_eq_ok_iff]
      simp only [link_eq_ok_iff settings options baseUrl positive]
      simp [pure, Except.pure, eq_comm]

end Written

theorem target_of_link {settings : Settings} (distinct : settings.keys.Nodup)
    (options : List (String × Value)) (baseUrl : String) (perPage page : Int) :
    target? baseUrl (writtenLink settings options baseUrl perPage page) =
      some (QueryString.decoded settings options ((page - 1) * perPage) perPage) := by
  rw [target_of_query, QueryString.options_of_written options distinct]
  rfl

def linkedPages (envelope : Envelope) : List Int :=
  1 :: max envelope.lastPage 1 :: ((prevPage? envelope).toList ++ (nextPage? envelope).toList)

theorem last_page_linked (envelope : Envelope) :
    max envelope.lastPage 1 ∈ linkedPages envelope := by
  simp [linkedPages]

/-- Links lead to pages that the envelope counts, also from a page that it does not count. -/
theorem linked_page_within {envelope : Envelope} (started : 1 ≤ envelope.currentPage) {page : Int}
    (linked : page ∈ linkedPages envelope) : 1 ≤ page ∧ page ≤ max envelope.lastPage 1 := by
  simp only [linkedPages, prevPage?, nextPage?, List.mem_cons, List.mem_append, Option.mem_toList,
    Option.ite_none_right_eq_some, Option.some.injEq] at linked
  omega

section Build

variable {settings : Settings} {options : List (String × Value)} {baseUrl : String}
  {envelope : Envelope} {links : PageLinks}

theorem build_eq_ok_iff (positive : 0 < envelope.perPage) :
    build settings options envelope baseUrl = .ok links ↔
      (∀ page ∈ linkedPages envelope, HasLink settings options envelope.perPage page) ∧
        links = writtenLinks settings options baseUrl envelope := by
  rw [build, if_neg (Int.not_le.mpr positive)]
  simp only [bind_eq_ok_iff, link_eq_ok_iff settings options baseUrl positive,
    optional_link_eq_ok_iff settings options baseUrl positive, and_assoc, exists_and_left,
    exists_eq_left, linkedPages, List.forall_mem_cons, List.forall_mem_append, Option.mem_toList]
  change _ ∧ _ ∧ _ ∧ _ ∧ Except.ok (writtenLinks settings options baseUrl envelope) = .ok links ↔ _
  rw [Except.ok.injEq, eq_comm]
  rfl

theorem link_of_written {target : String}
    (linked : some target ∈ [(writtenLinks settings options baseUrl envelope).first,
      (writtenLinks settings options baseUrl envelope).prev,
      (writtenLinks settings options baseUrl envelope).next,
      (writtenLinks settings options baseUrl envelope).last]) :
    ∃ page ∈ linkedPages envelope,
      target = writtenLink settings options baseUrl envelope.perPage page := by
  simp only [writtenLinks, List.mem_cons, List.not_mem_nil, or_false, Option.some.injEq] at linked
  rcases linked with first | prev | next | last
  · exact ⟨1, by simp [linkedPages], first⟩
  · obtain ⟨page, before, same⟩ := Option.map_eq_some_iff.mp prev.symm
    exact ⟨page, by simp [linkedPages, before], same.symm⟩
  · obtain ⟨page, behind, same⟩ := Option.map_eq_some_iff.mp next.symm
    exact ⟨page, by simp [linkedPages, behind], same.symm⟩
  · exact ⟨_, last_page_linked envelope, last⟩

/-- The last page starts farthest back, so a link to it is the longest one. -/
theorem build_of_fitting (terms : QueryString.TermsAreWritable settings options)
    (positive : 0 < envelope.perPage) (started : 1 ≤ envelope.currentPage)
    (size : envelope.perPage < (10 ^ IntegerTooLong.limit : Nat))
    (start : (max envelope.lastPage 1 - 1) * envelope.perPage < (10 ^ IntegerTooLong.limit : Nat)) :
    build settings options envelope baseUrl =
      .ok (writtenLinks settings options baseUrl envelope) := by
  refine (build_eq_ok_iff positive).mpr ⟨fun page linked => ?_, rfl⟩
  obtain ⟨counted, known⟩ := linked_page_within started linked
  have before : (page - 1) * envelope.perPage ≤ (max envelope.lastPage 1 - 1) * envelope.perPage :=
    Int.mul_le_mul_of_nonneg_right (by omega) (Int.le_of_lt positive)
  have behind : 0 ≤ (page - 1) * envelope.perPage :=
    Int.mul_nonneg (by omega) (Int.le_of_lt positive)
  refine ⟨_, QueryString.build_of_writable terms ?_ ?_ ?_ ?_⟩
  · rintro _ ⟨⟩
    exact behind
  · rintro _ ⟨⟩
    exact Int.le_of_lt positive
  · rintro _ ⟨⟩
    exact size
  · rintro _ ⟨⟩
    exact Int.lt_of_le_of_lt before start

theorem fitting_of_build (distinct : settings.keys.Nodup) (positive : 0 < envelope.perPage)
    (built : build settings options envelope baseUrl = .ok links) :
    envelope.perPage < (10 ^ IntegerTooLong.limit : Nat) ∧
      (max envelope.lastPage 1 - 1) * envelope.perPage < (10 ^ IntegerTooLong.limit : Nat) := by
  have last := ((build_eq_ok_iff positive).mp built).1 _ (last_page_linked envelope)
  have start : 0 ≤ (max envelope.lastPage 1 - 1) * envelope.perPage :=
    Int.mul_nonneg (by omega) (Int.le_of_lt positive)
  obtain ⟨_, size, fits⟩ := (QueryString.build_writes_iff distinct options
    (fun _ same => Option.some.inj same ▸ start)
    (fun _ same => Option.some.inj same ▸ Int.le_of_lt positive)).mp last
  exact ⟨size _ rfl, fits _ rfl⟩

end Build

end PageLinks

end QueryOptions
