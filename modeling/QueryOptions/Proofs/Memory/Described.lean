import Mathlib.Order.Bounds.Basic
import QueryOptions.Proofs.Links.Pages
import QueryOptions.Proofs.Memory.Responses

/-!
What an envelope says of the page that it carries. The positions of a page with rows are those of
its rows, counted from one. A page behind all rows is empty, and its positions say where it would
start; such a page may have a number that no page with rows has.
-/

namespace QueryOptions

namespace Envelope

theorem page_count_least {size : Int} (positive : 0 < size) {total : Int} (nonneg : 0 ≤ total) :
    IsLeast {count : Int | 0 ≤ count ∧ total ≤ count * size} (pageCount total size) := by
  have before := before_page_count positive total
  refine ⟨⟨?_, ?_⟩, ?_⟩
  · have started := (before (-1)).mpr (by omega)
    omega
  · exact Int.not_lt.mp fun less => Int.lt_irrefl _ ((before _).mpr less)
  · rintro count ⟨_, holds⟩
    exact Int.not_lt.mp fun fewer => Int.not_lt.mpr holds ((before count).mp fewer)

def ofPage (page : Page) (rows : List Value) : Envelope :=
  build (page.slice rows) rows.length page.skip page.limit

section OfPage

variable {page : Page} {rows : List Value}

theorem rows_given (skipNonneg : 0 ≤ page.skip) (more : page.skip < rows.length) : rows ≠ [] := by
  rintro rfl
  exact absurd more (Int.not_lt.mpr skipNonneg)

theorem first_of_page (given : rows ≠ []) : (ofPage page rows).first = page.skip + 1 := by
  have notNone : (rows.length : Int) ≠ 0 := by simpa using given
  exact if_neg notNone

theorem last_of_page (given : rows ≠ []) :
    (ofPage page rows).last = page.skip + (page.slice rows).length := by
  have notNone : (rows.length : Int) ≠ 0 := by simpa using given
  exact if_neg notNone

theorem per_page_of_page :
    (ofPage page rows).perPage = if 0 < page.limit then page.limit else rows.length := rfl

theorem current_of_page :
    (ofPage page rows).currentPage =
      if 0 < page.limit then Int.fdiv page.skip page.limit + 1 else 1 := rfl

theorem last_page_of_page :
    (ofPage page rows).lastPage = if 0 < page.limit then pageCount rows.length page.limit else 1 :=
  rfl

section Current

variable (limitNonneg : 0 ≤ page.limit)

include limitNonneg

/-- The current page is one of the pages, or the first one, exactly when it starts on one. -/
theorem current_page_known_iff :
    (ofPage page rows).currentPage ≤ max 1 (ofPage page rows).lastPage ↔
      page.limit = 0 ∨ page.skip < max 1 (ofPage page rows).lastPage * page.limit := by
  rw [current_of_page, last_page_of_page]
  by_cases limited : 0 < page.limit
  · have unbounded : page.limit ≠ 0 := Int.ne_of_gt limited
    rw [if_pos limited, if_pos limited, or_iff_right unbounded,
      Int.fdiv_eq_ediv_of_nonneg _ limitNonneg, Int.add_one_le_iff]
    exact Int.ediv_lt_iff_lt_mul limited
  · have zero : page.limit = 0 := by omega
    simp [zero]

theorem current_page_known (more : page.skip < rows.length) :
    (ofPage page rows).currentPage ≤ max 1 (ofPage page rows).lastPage := by
  rw [current_page_known_iff limitNonneg, last_page_of_page]
  by_cases limited : 0 < page.limit
  · have least := page_count_least limited (Int.natCast_nonneg rows.length)
    have scaled : pageCount rows.length page.limit * page.limit ≤
        max 1 (pageCount rows.length page.limit) * page.limit :=
      Int.mul_le_mul_of_nonneg_right (Int.le_max_right _ _) limitNonneg
    rw [if_pos limited]
    exact .inr (Int.lt_of_lt_of_le more (Int.le_trans least.1.2 scaled))
  · exact .inl (by omega)

variable (skipNonneg : 0 ≤ page.skip)

include skipNonneg

theorem positions_of_page (more : page.skip < rows.length) :
    1 ≤ (ofPage page rows).first ∧ (ofPage page rows).first ≤ (ofPage page rows).last ∧
      (ofPage page rows).last ≤ (ofPage page rows).total ∧
      (ofPage page rows).last - (ofPage page rows).first + 1 = (ofPage page rows).data.length := by
  have given := rows_given skipNonneg more
  have length := Page.slice_length skipNonneg limitNonneg rows
  have total : (ofPage page rows).total = rows.length := rfl
  have data : (ofPage page rows).data = page.slice rows := rfl
  rw [first_of_page given, last_of_page given, total, data]
  split at length <;> omega

end Current

end OfPage

end Envelope

namespace Memory.Collection

section Response

variable [Attributes] {rows : List Value} {rootAlias : String} {access : Access} {settings : Settings}
  {options : List (String × Value)} {envelope : Envelope}

theorem envelope_of_response
    (responds : (ask rows rootAlias access settings options).respond.2 = .ok envelope) :
    ∃ ordered, Gives rows rootAlias access settings options ordered ∧
      envelope = .ofPage (Page.ofSettings options settings) ordered := by
  obtain ⟨ordered, gives⟩ := gives_of_response responds
  exact ⟨ordered, gives, Except.ok.inj (responds.symm.trans gives.responds)⟩

/-- A response describes the page that it carries. Either the page has rows, and its positions are
those of as many rows among all, or it starts behind them and is empty; then its positions are zero
when there are no rows at all, and else the position behind its start and its start. The current
page counts from one, and it is at most the last page unless the page starts behind the last one
too. -/
theorem response_describes_page
    (responds : (ask rows rootAlias access settings options).respond.2 = .ok envelope) :
    let page := Page.ofSettings options settings
    (page.skip < envelope.total ∧ 1 ≤ envelope.first ∧ envelope.first ≤ envelope.last ∧
          envelope.last ≤ envelope.total ∧
          envelope.last - envelope.first + 1 = envelope.data.length ∧
          envelope.currentPage ≤ max 1 envelope.lastPage ∨
        envelope.total ≤ page.skip ∧ envelope.data = [] ∧
          if envelope.total = 0 then envelope.first = 0 ∧ envelope.last = 0
          else envelope.first = page.skip + 1 ∧ envelope.last = page.skip) ∧
      1 ≤ envelope.currentPage ∧
      (envelope.currentPage ≤ max 1 envelope.lastPage ↔
        page.limit = 0 ∨ page.skip < max 1 envelope.lastPage * page.limit) ∧
      if page.limit = 0 then envelope.perPage = envelope.total ∧ envelope.lastPage = 1
      else envelope.perPage = page.limit ∧
        IsLeast {count : Int | 0 ≤ count ∧ envelope.total ≤ count * envelope.perPage}
          envelope.lastPage := by
  intro page
  obtain ⟨ordered, _, rfl⟩ := envelope_of_response responds
  obtain ⟨skipNonneg, limitNonneg⟩ := Page.of_settings_nonneg options settings
  have total : (Envelope.ofPage page ordered).total = ordered.length := rfl
  refine ⟨?_, Envelope.current_page_counted _ skipNonneg limitNonneg,
    Envelope.current_page_known_iff limitNonneg, ?_⟩
  · by_cases more : page.skip < ordered.length
    · obtain ⟨starts, within, ends, counted⟩ :=
        Envelope.positions_of_page limitNonneg skipNonneg more
      exact .inl ⟨more, starts, within, ends, counted,
        Envelope.current_page_known limitNonneg more⟩
    · have past := Int.not_lt.mp more
      have empty := (Page.slice_eq_nil_iff skipNonneg limitNonneg ordered).mpr past
      refine .inr ⟨past, empty, ?_⟩
      rw [total]
      split
      · rename_i none
        exact ⟨if_pos none, if_pos none⟩
      · rename_i some
        have given : ordered ≠ [] := by simpa using some
        refine ⟨Envelope.first_of_page given, ?_⟩
        rw [Envelope.last_of_page given, empty]
        exact Int.add_zero _
  · rw [Envelope.per_page_of_page, Envelope.last_page_of_page, total]
    by_cases limited : 0 < page.limit
    · rw [if_neg (Int.ne_of_gt limited), if_pos limited, if_pos limited]
      exact ⟨rfl, Envelope.page_count_least limited (Int.natCast_nonneg _)⟩
    · have unbounded : page.limit = 0 := Int.le_antisymm (Int.not_lt.mp limited) limitNonneg
      rw [if_pos unbounded, if_neg limited, if_neg limited]
      exact ⟨rfl, rfl⟩

end Response

def trio : List Value := [.record [("name", .text "Ann")], .record [("name", .text "Bob")],
  .record [("name", .text "Cid")]]

attribute [local instance] Attributes.bare in
theorem response_describes_last_two :
    ∃ envelope : Envelope, (ask trio "entity" {} {}
        [("$top", .text "2"), ("$skip", .text "1")]).respond.2 = .ok envelope ∧
      envelope.first = 2 ∧ envelope.last = 3 ∧ envelope.data.length = 2 ∧
      envelope.currentPage ≤ max 1 envelope.lastPage ∧
      IsLeast {count : Int | 0 ≤ count ∧ 3 ≤ count * 2} envelope.lastPage := by
  have numbers : (ask trio "entity" {} {}
      [("$top", .text "2"), ("$skip", .text "1")]).respond.2.toOption.map
        (fun envelope => (envelope.first, envelope.last, envelope.total, envelope.perPage)) =
          some (2, 3, 3, 2) := by decide +kernel
  have page : Page.ofSettings [("$top", .text "2"), ("$skip", .text "1")] {} = ⟨1, 2⟩ := by
    decide +kernel
  obtain ⟨envelope, found, same⟩ := Option.map_eq_some_iff.mp numbers
  simp only [Prod.mk.injEq] at same
  obtain ⟨first, last, total, size⟩ := same
  have responds := ok_of_to_option found
  obtain ⟨positions, _, _, pages⟩ := response_describes_page responds
  rw [page, total] at positions pages
  rw [size] at pages
  refine ⟨envelope, responds, first, last, ?_⟩
  rcases positions with ⟨_, _, _, _, counted, known⟩ | ⟨past, _⟩
  · rw [first, last] at counted
    exact ⟨Int.ofNat_inj.mp counted.symm, known, pages.2⟩
  · exact absurd past (by decide)

attribute [local instance] Attributes.bare in
/-- Behind the last page a response is empty, but its positions are not zero, and the current page
is not one of the pages. -/
theorem empty_page_keeps_positions :
    ∃ envelope : Envelope, (ask trio "entity" {} {}
        [("$top", .text "2"), ("$skip", .text "4")]).respond.2 = .ok envelope ∧
      envelope.data = [] ∧ envelope.first = 5 ∧ envelope.last = 4 ∧ envelope.total = 3 ∧
      envelope.currentPage = 3 ∧ envelope.lastPage = 2 ∧
      ¬(envelope.data = [] ∧ envelope.first = 0 ∧ envelope.last = 0 ∨
        1 ≤ envelope.first ∧ envelope.first ≤ envelope.last ∧ envelope.last ≤ envelope.total ∧
          envelope.last - envelope.first + 1 = envelope.data.length) ∧
      ¬envelope.currentPage ≤ max 1 envelope.lastPage := by
  have numbers : (ask trio "entity" {} {}
      [("$top", .text "2"), ("$skip", .text "4")]).respond.2.toOption.map
        (fun envelope => (envelope.data.length, envelope.first, envelope.last, envelope.total,
          envelope.currentPage, envelope.lastPage)) = some (0, 5, 4, 3, 3, 2) := by decide +kernel
  obtain ⟨envelope, found, same⟩ := Option.map_eq_some_iff.mp numbers
  simp only [Prod.mk.injEq, List.length_eq_zero_iff] at same
  obtain ⟨data, first, last, total, current, lastPage⟩ := same
  refine ⟨envelope, ok_of_to_option found, data, first, last, total, current, lastPage, ?_, ?_⟩
  · rw [first, last]
    rintro (⟨_, zero, _⟩ | ⟨_, ordered, _⟩)
    · exact absurd zero (by decide)
    · exact absurd ordered (by decide)
  · rw [current, lastPage]
    decide

end Memory.Collection

end QueryOptions
