import QueryOptions.Proofs.Links.Walk
import QueryOptions.Proofs.Memory.Described

/-!
Where the links of a page go on. Pages are counted from the first row, so the next one starts at the
next multiple of the page size, wherever the current one starts. No row is left out on the way; rows
that the current page holds behind that multiple come again.
-/

namespace QueryOptions

open Memory (Collection)

namespace Envelope

def nextStart (envelope : Envelope) : Int := envelope.currentPage * envelope.perPage

section Limited

variable {page : Page} (rows : List Value) (limited : 0 < page.limit)

include limited

theorem next_start_of_page :
    (ofPage page rows).nextStart = (page.skip / page.limit + 1) * page.limit := by
  rw [nextStart, current_of_page, per_page_of_page, if_pos limited, if_pos limited,
    Int.fdiv_eq_ediv_of_nonneg _ (Int.le_of_lt limited)]

theorem next_start_within :
    page.skip < (ofPage page rows).nextStart ∧
      (ofPage page rows).nextStart ≤ page.skip + page.limit := by
  rw [next_start_of_page rows limited, Int.add_mul, Int.one_mul]
  have below := Int.ediv_mul_le page.skip (Int.ne_of_gt limited)
  have above := Int.lt_ediv_add_one_mul_self page.skip limited
  rw [Int.add_mul, Int.one_mul] at above
  omega

theorem next_start_aligned (aligned : page.limit ∣ page.skip) :
    (ofPage page rows).nextStart = page.skip + page.limit := by
  rw [next_start_of_page rows limited, Int.add_mul, Int.one_mul, Int.ediv_mul_cancel aligned]

theorem before_last_page_iff :
    (ofPage page rows).currentPage < (ofPage page rows).lastPage ↔
      (ofPage page rows).nextStart < rows.length := by
  rw [last_page_of_page, nextStart, per_page_of_page, if_pos limited, if_pos limited]
  exact before_page_count limited _ _

theorem behind_first_page_iff : 1 < (ofPage page rows).currentPage ↔ page.limit ≤ page.skip := by
  have turned := Int.le_ediv_iff_mul_le (a := 1) (b := page.skip) limited
  rw [Int.one_mul] at turned
  rw [current_of_page, if_pos limited, Int.fdiv_eq_ediv_of_nonneg _ (Int.le_of_lt limited),
    ← turned]
  omega

/-- A page that starts among the rows ends after as many as its size, or where they end. -/
theorem last_of_limited_page (skipNonneg : 0 ≤ page.skip) (more : page.skip < rows.length) :
    (ofPage page rows).last = min (page.skip + page.limit) rows.length := by
  have length := Page.slice_length skipNonneg (Int.le_of_lt limited) rows
  rw [if_neg (Int.ne_of_gt limited)] at length
  rw [last_of_page (rows_given skipNonneg more), length]
  omega

end Limited

end Envelope

namespace PageLinks

/-- The links of a page go on where pages counted from the first row do: behind its start, and
before any row that it does not hold. The next link names that position and is there exactly when it
is one of a row; the link back is there exactly when a whole page precedes. -/
structure ContinueAfter (settings : Settings) (baseUrl : String) (page : Page)
    (envelope : Envelope) (links : PageLinks) : Prop where
  within : page.skip < envelope.nextStart ∧ envelope.nextStart ≤ page.skip + page.limit
  multiple : page.limit ∣ envelope.nextStart
  next_iff : links.next.isSome ↔ envelope.nextStart < envelope.total
  reaches : links.next.isSome → envelope.nextStart ≤ envelope.last
  remaining : envelope.last < envelope.total → links.next.isSome
  names : ∀ link, links.next = some link → ∃ target, target? baseUrl link = some target ∧
    Page.optionValue target settings.skipKey = .text (toString envelope.nextStart)
  prev_iff : links.prev.isSome ↔ page.limit ≤ page.skip

section Limited

variable (settings : Settings) (options : List (String × Value)) (baseUrl : String) {page : Page}
  (rows : List Value) (limited : 0 < page.limit) (skipNonneg : 0 ≤ page.skip)

include limited skipNonneg

theorem written_links_of_limited_page :
    let envelope := Envelope.ofPage page rows
    let links := writtenLinks settings options baseUrl envelope
    links.next = (if envelope.nextStart < envelope.total then
        some (writtenLink settings options baseUrl page.limit (envelope.currentPage + 1))
      else none) ∧
      (links.prev.isSome ↔ page.limit ≤ page.skip) := by
  intro envelope links
  have counted : 1 ≤ envelope.currentPage :=
    Envelope.current_page_counted _ skipNonneg (Int.le_of_lt limited)
  have size : envelope.perPage = page.limit := if_pos limited
  have before : envelope.currentPage < envelope.lastPage ↔ envelope.nextStart < envelope.total :=
    Envelope.before_last_page_iff rows limited
  have more : envelope.currentPage < max envelope.lastPage 1 ↔
      envelope.nextStart < envelope.total := by
    rw [← before]
    omega
  refine ⟨?_, ?_⟩
  · change (nextPage? envelope).map _ = _
    simp only [nextPage?, more, size]
    split <;> rfl
  · change ((prevPage? envelope).map _).isSome ↔ _
    rw [← Envelope.behind_first_page_iff rows limited, Option.isSome_map]
    exact Option.isSome_ite

theorem target_of_next {onwards : String}
    (named : (writtenLinks settings options baseUrl (.ofPage page rows)).next = some onwards) :
    target? baseUrl onwards = QueryString.optionsOf (QueryString.written settings options
      (some (Envelope.ofPage page rows).nextStart) (some page.limit)) := by
  have start : ((Envelope.ofPage page rows).currentPage + 1 - 1) * page.limit =
      (Envelope.ofPage page rows).nextStart := by
    rw [Int.add_sub_cancel, Envelope.nextStart, Envelope.per_page_of_page, if_pos limited]
  rw [(written_links_of_limited_page settings options baseUrl rows limited skipNonneg).1] at named
  obtain ⟨_, rfl⟩ := Option.ite_some_none_eq_some.mp named
  rw [target_of_query, start]

variable (more : page.skip < rows.length)

include more

theorem continue_after_page :
    ContinueAfter settings baseUrl page (.ofPage page rows)
      (writtenLinks settings options baseUrl (.ofPage page rows)) := by
  have within := Envelope.next_start_within rows limited
  have last := Envelope.last_of_limited_page rows limited skipNonneg more
  have total : (Envelope.ofPage page rows).total = rows.length := rfl
  obtain ⟨next, prev⟩ :=
    written_links_of_limited_page settings options baseUrl rows limited skipNonneg
  have next_iff : (writtenLinks settings options baseUrl (.ofPage page rows)).next.isSome ↔
      (Envelope.ofPage page rows).nextStart < (Envelope.ofPage page rows).total := by
    rw [next]
    exact Option.isSome_ite
  refine ⟨within, ?_, next_iff, fun present => ?_, fun remaining => ?_,
    fun onwards named => ?_, prev⟩
  · rw [Envelope.next_start_of_page rows limited]
    exact Int.dvd_mul_left _ _
  · have before := next_iff.mp present
    omega
  · rw [next_iff]
    omega
  · rw [target_of_next settings options baseUrl rows limited skipNonneg named]
    exact QueryString.skip_comes_back settings options (Int.lt_of_le_of_lt skipNonneg within.1) _

theorem continue_at_end (aligned : page.limit ∣ page.skip) :
    let envelope := Envelope.ofPage page rows
    let links := writtenLinks settings options baseUrl envelope
    envelope.nextStart = page.skip + page.limit ∧
      (links.next.isSome ↔ envelope.last < envelope.total) ∧
      (links.next.isSome → envelope.nextStart = envelope.last) ∧
      (links.prev.isSome ↔ 0 < page.skip) := by
  intro envelope links
  have continues : ContinueAfter settings baseUrl page envelope links :=
    continue_after_page settings options baseUrl rows limited skipNonneg more
  have start : envelope.nextStart = page.skip + page.limit :=
    Envelope.next_start_aligned rows limited aligned
  have last : envelope.last = min (page.skip + page.limit) rows.length :=
    Envelope.last_of_limited_page rows limited skipNonneg more
  have total : envelope.total = rows.length := rfl
  have whole : page.limit ≤ page.skip ↔ 0 < page.skip :=
    ⟨fun fits => Int.lt_of_lt_of_le limited fits, fun behind => Int.le_of_dvd behind aligned⟩
  refine ⟨start, ?_, fun present => ?_, continues.prev_iff.trans whole⟩
  · rw [continues.next_iff]
    omega
  · have before := continues.next_iff.mp present
    omega

end Limited

end PageLinks

section Response

variable [Memory.Attributes] {rows : List Value} {rootAlias : String} {access : Access}
  {settings : Settings} {options : List (String × Value)} {envelope : Envelope}

theorem IsPaged.responds_from {ordered : List Value} {size start : Int}
    (paged : IsPaged rows rootAlias access settings options ordered size) (multiple : size ∣ start)
    (nonneg : 0 ≤ start) (before : start < ordered.length) :
    ∃ following : Envelope, (Collection.ask rows rootAlias access settings
        (QueryString.decoded settings options start size)).respond.2 = .ok following ∧
      following.data = Page.slice ⟨start, size⟩ ordered := by
  obtain ⟨index, rfl⟩ := multiple
  have counted : 0 ≤ index := Int.nonneg_of_mul_nonneg_right nonneg paged.positive
  obtain ⟨index, rfl⟩ := Int.eq_ofNat_of_zero_le counted
  rw [Int.mul_comm] at before ⊢
  exact ⟨_, (paged.answers "" index (.inr before)).responds, rfl⟩

/-- The links of a response with rows go on at the next multiple of the page size behind its start,
so no row is left out. When the page itself starts at a multiple of its size, that is where it ends:
the next link is there exactly when rows remain, the link back exactly when rows precede. Following
the next link, what the page holds up to there and the rows that come next are together the rows
that the request returns without bounds, from the start of the page on. Links are given unless the
limit, which a ceiling may have fixed, or an integer in a term that is no text is too long. -/
theorem links_continue_after_page
    (responds : (Collection.ask rows rootAlias access settings options).respond.2 = .ok envelope)
    (limited : 0 < (Page.ofSettings options settings).limit) (given : envelope.data ≠ [])
    (baseUrl : String) :
    let page := Page.ofSettings options settings
    let linked := ((Collection.ask rows rootAlias access settings options).links baseUrl).2
    (page.limit < (10 ^ IntegerTooLong.limit : Nat) →
      envelope.total < (10 ^ IntegerTooLong.limit : Nat) →
      QueryString.TermsAreWritable settings options → ∃ links, linked = .ok links) ∧
    ∀ links, linked = .ok links →
      PageLinks.ContinueAfter settings baseUrl page envelope links ∧
      (page.limit ∣ page.skip → envelope.nextStart = page.skip + page.limit ∧
        (links.next.isSome ↔ envelope.last < envelope.total) ∧
        (links.next.isSome → envelope.nextStart = envelope.last) ∧
        (links.prev.isSome ↔ 0 < page.skip)) ∧
      (settings.keys.Nodup → AreTexts options → rows.length < 10 ^ IntegerTooLong.limit →
        ∀ link, links.next = some link → ∃ target whole following,
          PageLinks.target? baseUrl link = some target ∧
          (Collection.ask rows rootAlias access { settings with maxTop := none }
            (withoutBounds settings options)).execute.2 = .ok whole ∧
          (Collection.ask rows rootAlias access settings target).respond.2 = .ok following ∧
          envelope.data.take (envelope.nextStart - page.skip).toNat ++ following.data =
            Page.slice ⟨page.skip, envelope.nextStart - page.skip + page.limit⟩ whole.rows) := by
  intro page linked
  obtain ⟨ordered, gives, rfl⟩ := Collection.envelope_of_response responds
  obtain ⟨skipNonneg, limitNonneg⟩ := Page.of_settings_nonneg options settings
  have more : page.skip < ordered.length := Int.not_le.mp fun past =>
    given ((Page.slice_eq_nil_iff skipNonneg limitNonneg ordered).mpr past)
  have size : (Envelope.ofPage page ordered).perPage = page.limit := if_pos limited
  have positive : 0 < (Envelope.ofPage page ordered).perPage := size ▸ limited
  have made : linked = (PageLinks.build settings options (Envelope.ofPage page ordered)
      baseUrl).mapError .unwritable := by
    change (Session.links _ baseUrl).2 = _
    rw [Session.links_of_respond, responds]
    rfl
  rw [made]
  refine ⟨fun short countable terms => ?_, fun links built => ?_⟩
  · rw [PageLinks.build_of_fitting terms positive
      (Envelope.current_page_counted _ skipNonneg limitNonneg) (size ▸ short)
      (Envelope.last_page_starts_short _ positive countable)]
    exact ⟨_, rfl⟩
  obtain ⟨_, rfl⟩ := (PageLinks.build_eq_ok_iff positive).mp (ok_of_map_error built)
  have continues :=
    PageLinks.continue_after_page settings options baseUrl ordered limited skipNonneg more
  refine ⟨continues,
    PageLinks.continue_at_end settings options baseUrl ordered limited skipNonneg more,
    fun distinct texts countable link named => ?_⟩
  have short := (PageLinks.fitting_of_build distinct positive (ok_of_map_error built)).1
  have paged := IsPaged.of_gives distinct texts countable gives (if_pos limited).symm limited
    (size ▸ short)
  have before := continues.next_iff.mp (Option.isSome_iff_exists.mpr ⟨link, named⟩)
  have within := continues.within
  have target :=
    PageLinks.target_of_next settings options baseUrl ordered limited skipNonneg named
  rw [QueryString.options_of_written options distinct] at target
  -- The next start is a multiple of the size, so it is that of a page which is known.
  obtain ⟨following, answers, data⟩ := paged.responds_from continues.multiple
    (Int.le_trans skipNonneg (Int.le_of_lt within.1)) before
  refine ⟨_, _, following, target, paged.executes_without_bounds, answers, ?_⟩
  rw [data]
  exact Page.slice_continues ordered skipNonneg limited (Int.le_of_lt within.1) within.2

end Response

def secondPair : List (String × Value) := [("$top", .text "2"), ("$skip", .text "1")]

attribute [local instance] Memory.Attributes.bare in
/-- The third of three people is on the page from the second on, and comes again. -/
theorem third_person_comes_again :
    let session := Collection.ask Collection.trio "entity" {} {} secondPair
    let name := fun row => (Memory.resolve row "name").plainText
    ∃ envelope links link target following, session.respond.2 = .ok envelope ∧
      envelope.nextStart = 2 ∧ (session.links "/people").2 = .ok links ∧
      ¬links.prev.isSome ∧ links.next = some link ∧
      PageLinks.target? "/people" link = some target ∧
      (Collection.ask Collection.trio "entity" {} {} target).respond.2 = .ok following ∧
      (envelope.data.take 1).map name ++ following.data.map name = ["Bob", "Cid"] := by
  intro session name
  have page : Page.ofSettings secondPair {} = ⟨1, 2⟩ := by decide +kernel
  have numbers : session.respond.2.toOption.map (fun envelope =>
      (envelope.data.length, envelope.nextStart, envelope.total)) = some (2, 2, 3) := by
    decide +kernel
  have names : (Collection.ask Collection.trio "entity" {} {}
      (withoutBounds {} secondPair)).execute.2.toOption.map (fun answer =>
        answer.rows.map name) = some ["Ann", "Bob", "Cid"] := by decide +kernel
  have texts : AreTexts secondPair := by
    intro option member
    simp only [secondPair, List.mem_cons, List.not_mem_nil, or_false] at member
    rcases member with rfl | rfl <;> exact ⟨_, rfl⟩
  have countable : Collection.trio.length < 10 ^ IntegerTooLong.limit :=
    Nat.lt_of_lt_of_le (by decide : Collection.trio.length < 10 ^ 1)
      (Nat.pow_le_pow_right (by decide) (by decide))
  obtain ⟨envelope, found, same⟩ := Option.map_eq_some_iff.mp numbers
  simp only [Prod.mk.injEq] at same
  obtain ⟨held, start, total⟩ := same
  have responds := ok_of_to_option found
  have given : envelope.data ≠ [] := by
    rw [← List.length_pos_iff, held]
    decide
  have limited : 0 < (Page.ofSettings secondPair {}).limit := by
    rw [page]
    decide
  obtain ⟨written, continuing⟩ := links_continue_after_page responds limited given "/people"
  have short : (Page.ofSettings secondPair {}).limit < (10 ^ IntegerTooLong.limit : Nat) := by
    decide +kernel
  have totalShort : envelope.total < (10 ^ IntegerTooLong.limit : Nat) := by
    rw [total]
    decide +kernel
  obtain ⟨links, linked⟩ := written short totalShort (QueryString.terms_writable_of_texts {} texts)
  obtain ⟨continues, _, follows⟩ := continuing links linked
  rw [page] at continues follows
  have onwards : links.next.isSome := by
    rw [continues.next_iff, start, total]
    decide
  obtain ⟨link, named⟩ := Option.isSome_iff_exists.mp onwards
  obtain ⟨target, whole, following, asked, executes, answers, rows⟩ :=
    follows (by decide) texts countable link named
  refine ⟨envelope, links, link, target, following, responds, start, linked, ?_, named, asked,
    answers, ?_⟩
  · rw [continues.prev_iff]
    decide
  · have plainSettings : ({ ({} : Settings) with maxTop := none } : Settings) = {} := rfl
    rw [plainSettings] at executes
    rw [executes] at names
    rw [start] at rows
    have whole : whole.rows.map name = ["Ann", "Bob", "Cid"] := Option.some.inj names
    have joined := congrArg (List.map name) rows
    rw [List.map_append, ← Page.slice_map, whole] at joined
    exact joined

attribute [local instance] Memory.Attributes.bare in
/-- A page that starts at no multiple of its size: no person remains behind it, yet it has a link to
a next page, which starts before its end; and a person precedes it, yet it has no link back. -/
theorem links_leave_the_page :
    let session := Collection.ask Collection.trio "entity" {} {} secondPair
    let page := Page.ofSettings secondPair {}
    ∃ envelope links, session.respond.2 = .ok envelope ∧
      (session.links "/people").2 = .ok links ∧ 0 < page.limit ∧ envelope.data ≠ [] ∧
      envelope.last = 3 ∧ links.next = some "/people?$top=2&$skip=2" ∧
      ¬(links.next.isSome ↔ envelope.last < envelope.total) ∧
      ¬(links.prev.isSome ↔ 0 < page.skip) := by
  intro session page
  have asked : page = ⟨1, 2⟩ := by decide +kernel
  have numbers : session.respond.2.toOption.map (fun envelope =>
      (envelope.data.length, envelope.last, envelope.total)) = some (2, 3, 3) := by decide +kernel
  have linked : (session.links "/people").2.toOption =
      some ⟨some "/people?$top=2", none, some "/people?$top=2&$skip=2",
        some "/people?$top=2&$skip=2"⟩ := by decide +kernel
  obtain ⟨envelope, found, same⟩ := Option.map_eq_some_iff.mp numbers
  simp only [Prod.mk.injEq] at same
  obtain ⟨held, last, total⟩ := same
  refine ⟨envelope, _, ok_of_to_option found, ok_of_to_option linked, ?_, ?_, last, rfl, ?_, ?_⟩
  · rw [asked]
    decide
  · rw [← List.length_pos_iff, held]
    decide
  · rw [last, total]
    decide
  · rw [asked]
    decide

end QueryOptions
