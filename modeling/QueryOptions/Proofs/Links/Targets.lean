import QueryOptions.Proofs.Links.Pages
import QueryOptions.Proofs.Links.SameRequest

/-!
Where the links of an envelope lead. Every link keeps the terms of the request and names one of the
pages that the envelope counts, also when the envelope itself is that of a page behind all of them.
There are no links only when pages hold nothing.
-/

namespace QueryOptions

namespace Envelope

theorem per_page_nonneg (rows : List Value) {total skip limit : Int} (totalNonneg : 0 ≤ total) : 0 ≤ (build rows total skip limit).perPage := by
  unfold build
  dsimp only
  split <;> omega

end Envelope

namespace PageLinks

/-- What it takes for a link to lead to a page: the page is one of those that the envelope counts,
or the first one, and the link asks for the terms of the request with the bounds of that page. -/
structure LeadsTo (settings : Settings) (options : List (String × Value)) (baseUrl : String)
    (envelope : Envelope) (link : String) (page : Int) : Prop where
  counted : 1 ≤ page
  known : page ≤ max 1 envelope.lastPage
  starts : (page - 1) * envelope.perPage = 0 ∨ (page - 1) * envelope.perPage < envelope.total
  asks : ∃ query, link = baseUrl ++ "?" ++ query ∧
    QueryString.decodePairs query = some (QueryString.terms settings options ++
      [(settings.topKey, toString envelope.perPage)] ++
      QueryString.boundPair settings.skipKey ((page - 1) * envelope.perPage))

section Leads

variable {settings : Settings} {options : List (String × Value)}
  (distinct : settings.keys.Nodup) (texts : AreTexts options) (rows : List Value)
  {total skip limit : Int}

include distinct texts

theorem link_leads (baseUrl : String)
    (positive : 0 < (Envelope.build rows total skip limit).perPage) {page : Int}
    (counted : 1 ≤ page) (known : page ≤ max 1 (Envelope.build rows total skip limit).lastPage) :
    LeadsTo settings options baseUrl (.build rows total skip limit)
      (writtenLink settings options baseUrl (Envelope.build rows total skip limit).perPage page)
      page := by
  have starts := Envelope.known_page_starts rows positive counted known
  have behind : 0 ≤ (page - 1) * (Envelope.build rows total skip limit).perPage :=
    Int.mul_nonneg (by omega) (Int.le_of_lt positive)
  refine ⟨counted, known, starts, _, rfl, ?_⟩
  rw [QueryString.pairs_of_written distinct texts (fun _ same => Option.some.inj same ▸ behind)
    (fun _ same => Option.some.inj same ▸ Int.le_of_lt positive)]
  rw [Option.getD_some, Option.getD_some, QueryString.boundPair, if_pos positive]

/-- Every link leads to an existing page and keeps the query. The first link leads to page one, the
last one to the page that holds the last row, the link back to the nearest page before the current
one, and the link onwards to the page after it. Only pages that hold nothing have no links. There
are links as long as the numbers in the last one, which has the largest, are not too long. -/
theorem links_lead_to_existing_pages (totalNonneg : 0 ≤ total) (skipNonneg : 0 ≤ skip)
    (limitNonneg : 0 ≤ limit) (baseUrl : String) :
    let envelope := Envelope.build rows total skip limit
    let lastPage := max 1 ⌈(total : ℚ) / envelope.perPage⌉
    let Leads := LeadsTo settings options baseUrl envelope
    ((∃ links, build settings options envelope baseUrl = .ok links) ↔
      envelope.perPage < (10 ^ IntegerTooLong.limit : Nat) ∧
        (lastPage - 1) * envelope.perPage < (10 ^ IntegerTooLong.limit : Nat)) ∧
    ∀ links, build settings options envelope baseUrl = .ok links →
      (links = {} ↔ envelope.perPage = 0) ∧
      (0 < envelope.perPage → links.first.isSome ∧ links.last.isSome ∧
        (links.prev.isSome ↔ 1 < envelope.currentPage) ∧
        (links.next.isSome ↔ envelope.currentPage < lastPage)) ∧
      (∀ link, links.first = some link → Leads link 1) ∧
      (∀ link, links.last = some link → Leads link lastPage) ∧
      (∀ link, links.prev = some link → ∃ page < envelope.currentPage, Leads link page ∧
        ∀ other < envelope.currentPage, other ≤ lastPage → other ≤ page) ∧
      ∀ link, links.next = some link → Leads link (envelope.currentPage + 1) := by
  intro envelope lastPage Leads
  have started : 1 ≤ envelope.currentPage :=
    Envelope.current_page_counted rows skipNonneg limitNonneg
  by_cases positive : 0 < envelope.perPage
  · have pages : max envelope.lastPage 1 = lastPage := by
      rw [Envelope.last_page_counts rows positive, Envelope.page_count_eq_ceil positive,
        Int.max_comm]
    refine ⟨⟨?_, ?_⟩, fun links built => ?_⟩
    · rintro ⟨links, built⟩
      exact pages ▸ fitting_of_build distinct positive built
    · rintro ⟨size, start⟩
      rw [← pages] at start
      exact ⟨_, build_of_fitting (QueryString.terms_writable_of_texts settings texts) positive
        started size start⟩
    have leads {page : Int} (linked : page ∈ linkedPages envelope) :
        Leads (writtenLink settings options baseUrl envelope.perPage page) page := by
      obtain ⟨counted, known⟩ := linked_page_within started linked
      exact link_leads distinct texts rows baseUrl positive counted (Int.max_comm _ _ ▸ known)
    obtain ⟨_, rfl⟩ := (build_eq_ok_iff positive).mp built
    rw [← pages]
    refine ⟨⟨fun none => ?_, fun zero => ?_⟩, fun _ => ⟨rfl, rfl, ?_, ?_⟩, ?_, ?_, ?_, ?_⟩
    · cases congrArg PageLinks.first none
    · exact absurd zero (Int.ne_of_gt positive)
    · rw [writtenLinks, Option.isSome_map]
      exact Option.isSome_ite
    · rw [writtenLinks, Option.isSome_map]
      exact Option.isSome_ite
    · rintro link ⟨⟩
      exact leads (by simp [linkedPages])
    · rintro link ⟨⟩
      exact leads (last_page_linked envelope)
    · intro link given
      obtain ⟨page, back, rfl⟩ := Option.map_eq_some_iff.mp given
      obtain ⟨later, same⟩ := Option.ite_none_right_eq_some.mp back
      cases same
      refine ⟨_, ?_, leads (by simp [linkedPages, back]), fun other before known => ?_⟩ <;> omega
    · intro link given
      obtain ⟨page, onwards, rfl⟩ := Option.map_eq_some_iff.mp given
      obtain ⟨more, same⟩ := Option.ite_none_right_eq_some.mp onwards
      cases same
      exact leads (by simp [linkedPages, onwards])
  · have zero : envelope.perPage = 0 :=
      Int.le_antisymm (Int.not_lt.mp positive) (Envelope.per_page_nonneg rows totalNonneg)
    have none : build settings options envelope baseUrl = .ok {} := if_pos (Int.not_lt.mp positive)
    rw [none, zero, Int.mul_zero]
    refine ⟨⟨fun _ => ⟨IntegerTooLong.bound_positive, IntegerTooLong.bound_positive⟩,
      fun _ => ⟨_, rfl⟩⟩, ?_⟩
    rintro _ ⟨⟩
    refine ⟨⟨fun _ => rfl, fun _ => rfl⟩, fun given => absurd given (Int.lt_irrefl 0), ?_, ?_, ?_,
      ?_⟩ <;> rintro _ ⟨⟩

end Leads

/-- Behind the last page of five rows, with a filter that has separators of a query string in it. -/
theorem links_lead_back_from_behind :
    let options := [("$filter", Value.text "name eq 'a&b=c'"), ("$skip", .text "9")]
    let envelope := Envelope.build [] 5 9 2
    AreTexts options ∧ envelope.currentPage = 5 ∧
      ∃ links prev, build {} options envelope "/users" = .ok links ∧ links ≠ {} ∧
        links.next = none ∧ links.prev = some prev ∧
        LeadsTo {} options "/users" envelope prev 3 := by
  intro options envelope
  have texts : AreTexts options := by
    intro option member
    simp only [options, List.mem_cons, List.not_mem_nil, or_false] at member
    rcases member with rfl | rfl <;> exact ⟨_, rfl⟩
  have distinct : (Settings.keys {}).Nodup := by decide
  have current : envelope.currentPage = 5 := by decide
  have size : envelope.perPage = 2 := rfl
  have pages : max 1 ⌈((5 : Int) : ℚ) / envelope.perPage⌉ = 3 := by
    rw [← Envelope.page_count_eq_ceil (by decide)]
    decide
  have totalNonneg : (0 : Int) ≤ 5 := by decide
  have skipNonneg : (0 : Int) ≤ 9 := by decide
  have limitNonneg : (0 : Int) ≤ 2 := by decide
  obtain ⟨written, leading⟩ :=
    links_lead_to_existing_pages distinct texts [] totalNonneg skipNonneg limitNonneg "/users"
  obtain ⟨links, built⟩ := written.mpr (by
    rw [pages, size]
    decide +kernel)
  obtain ⟨empty, present, _, _, back, _⟩ := leading links built
  obtain ⟨_, _, hasPrev, hasNext⟩ := present (by decide)
  obtain ⟨prev, named⟩ := Option.isSome_iff_exists.mp (hasPrev.mpr (by decide))
  obtain ⟨page, before, leads, nearest⟩ := back prev named
  have three : page = 3 := by
    have reached := nearest 3 (by decide) (by rw [pages])
    have known := leads.known
    have last : max 1 envelope.lastPage = 3 := by decide
    rw [last] at known
    exact Int.le_antisymm known reached
  refine ⟨texts, current, links, prev, built, ?_, ?_, named, three ▸ leads⟩
  · rw [Ne, empty, size]
    decide
  · rw [← Option.not_isSome_iff_eq_none, hasNext, current, pages]
    decide

/-- As many pages as each page has rows: the last one starts behind more rows than can be written,
and so there are no links, not even the short ones. -/
theorem overlong_last_page_leaves_no_links :
    let size : Int := (10 ^ 3000 : Nat)
    let options := [("$filter", Value.text "age gt 18")]
    let envelope := Envelope.build [] (size * size) 0 size
    (Settings.keys {}).Nodup ∧ AreTexts options ∧ 0 ≤ size * size ∧ 0 ≤ size ∧
      envelope.perPage = size ∧ envelope.currentPage = 1 ∧ envelope.lastPage = size ∧
      build {} options envelope "/users" = .error {} := by
  intro size options envelope
  have distinct : (Settings.keys {}).Nodup := by decide
  have texts : AreTexts options := by
    intro option member
    obtain rfl := List.mem_singleton.mp member
    exact ⟨_, rfl⟩
  have perPage : envelope.perPage = size := by decide +kernel
  have lastPage : envelope.lastPage = size := by decide +kernel
  have overlong : ¬(max envelope.lastPage 1 - 1) * envelope.perPage <
      (10 ^ IntegerTooLong.limit : Nat) := by decide +kernel
  refine ⟨distinct, texts, by decide +kernel, by decide +kernel, perPage, by decide +kernel,
    lastPage, ?_⟩
  cases built : build {} options envelope "/users" with
  | error failure => rfl
  | ok links =>
      have positive : 0 < envelope.perPage := by decide +kernel
      exact absurd (fitting_of_build distinct positive built).2 overlong

end PageLinks

end QueryOptions
