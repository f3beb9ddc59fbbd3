import QueryOptions.Proofs.Links.Pages
import QueryOptions.Proofs.Memory.Responses

/-!
Walking along page links. From the first link on, following the link to the next page with a fresh
request each time meets every matching row once, in order, and ends at the page of the last link.
-/

namespace QueryOptions

open Memory (Collection)

structure Visit where
  options : List (String × Value)
  envelope : Envelope
  links : PageLinks

section Following

variable [Memory.Attributes] (rows : List Value) (rootAlias : String) (access : Access) (settings : Settings)
  (baseUrl : String)

/-- A fresh request for some options is answered with the envelope and the links of the visit. -/
structure Visit.Answers (options : List (String × Value)) (visit : Visit) : Prop where
  asked : visit.options = options
  responds : (Collection.ask rows rootAlias access settings options).respond.2 = .ok visit.envelope
  links : ((Collection.ask rows rootAlias access settings options).links baseUrl).2 =
    .ok visit.links

/-- The visits from some options on, when the link to the next page is followed for as long as
there is one. -/
inductive Walk : List (String × Value) → List Visit → Prop where
  | ends {options : List (String × Value)} {visit : Visit}
      (answers : visit.Answers rows rootAlias access settings baseUrl options)
      (last : visit.links.next = none) : Walk options [visit]
  | goesOn {options nextOptions : List (String × Value)} {visit : Visit} {link : String}
      {rest : List Visit} (answers : visit.Answers rows rootAlias access settings baseUrl options)
      (next : visit.links.next = some link)
      (target : PageLinks.target? baseUrl link = some nextOptions)
      (further : Walk nextOptions rest) : Walk options (visit :: rest)

end Following

section Fixed

variable [Memory.Attributes] {rows : List Value} {rootAlias : String} {access : Access} {settings : Settings}
  {baseUrl : String}

theorem Visit.Answers.unique {options : List (String × Value)} {first second : Visit}
    (firstAnswers : first.Answers rows rootAlias access settings baseUrl options)
    (secondAnswers : second.Answers rows rootAlias access settings baseUrl options) :
    first = second := by
  obtain ⟨firstOptions, firstEnvelope, firstLinks⟩ := first
  obtain ⟨secondOptions, secondEnvelope, secondLinks⟩ := second
  cases firstAnswers.asked.trans secondAnswers.asked.symm
  cases firstAnswers.responds.symm.trans secondAnswers.responds
  cases firstAnswers.links.symm.trans secondAnswers.links
  rfl

theorem Walk.unique {options : List (String × Value)} {first second : List Visit}
    (firstWalk : Walk rows rootAlias access settings baseUrl options first)
    (secondWalk : Walk rows rootAlias access settings baseUrl options second) :
    first = second := by
  induction firstWalk generalizing second with
  | ends answers last =>
      cases secondWalk with
      | ends otherAnswers _ => rw [answers.unique otherAnswers]
      | goesOn otherAnswers next _ _ =>
          rw [answers.unique otherAnswers, next] at last
          cases last
  | goesOn answers next target _ induction =>
      cases secondWalk with
      | ends otherAnswers last =>
          rw [answers.unique otherAnswers, last] at next
          cases next
      | goesOn otherAnswers otherNext otherTarget further =>
          cases answers.unique otherAnswers
          cases next.symm.trans otherNext
          cases target.symm.trans otherTarget
          rw [induction further]

end Fixed

/-- What is known of a request whose rows come in pages of one size. -/
structure IsPaged [Memory.Attributes] (rows : List Value) (rootAlias : String) (access : Access) (settings : Settings)
    (options : List (String × Value)) (ordered : List Value) (perPage : Int) : Prop where
  distinct : settings.keys.Nodup
  texts : AreTexts options
  gives : Collection.Gives rows rootAlias access settings options ordered
  positive : 0 < perPage
  short : perPage < (10 ^ IntegerTooLong.limit : Nat)
  settled : Page.clamp settings.maxTop (QueryString.broughtBack perPage) = perPage
  countable : (ordered.length : Int) < (10 ^ IntegerTooLong.limit : Nat)

def pageVisit (settings : Settings) (baseUrl : String) (options : List (String × Value))
    (ordered : List Value) (perPage : Int) (index : Nat) : Visit :=
  let asked := QueryString.decoded settings options (index * perPage) perPage
  let envelope := Envelope.build (Page.slice ⟨index * perPage, perPage⟩ ordered) ordered.length
    (index * perPage) perPage
  ⟨asked, envelope, .writtenLinks settings asked baseUrl envelope⟩

namespace IsPaged

variable [Memory.Attributes]

theorem of_gives {rows ordered : List Value} {rootAlias : String} {access : Access}
    {settings : Settings} {options : List (String × Value)} (distinct : settings.keys.Nodup)
    (texts : AreTexts options) (countable : rows.length < 10 ^ IntegerTooLong.limit)
    (gives : Collection.Gives rows rootAlias access settings options ordered) {perPage : Int}
    (size : perPage = if 0 < (Page.ofSettings options settings).limit then
      (Page.ofSettings options settings).limit else ordered.length) (positive : 0 < perPage)
    (short : perPage < (10 ^ IntegerTooLong.limit : Nat)) :
    IsPaged rows rootAlias access settings options ordered perPage := by
  have held : (ordered.length : Int) < (10 ^ IntegerTooLong.limit : Nat) :=
    Int.ofNat_lt.mpr (Nat.lt_of_le_of_lt gives.length_le countable)
  exact ⟨distinct, texts, gives, positive, short, Page.clamp_settled settings.maxTop
    (Page.bound_nonneg _) (Page.bound_small (Page.optionValue options settings.topKey)) held size
    positive, held⟩

variable {rows : List Value} {rootAlias : String} {access : Access} {settings : Settings}
  {baseUrl : String} {options : List (String × Value)} {ordered : List Value} {perPage : Int}
  (paged : IsPaged rows rootAlias access settings options ordered perPage)

include paged

/-- Every page of the rows has links: its size is short, and the last page starts among the rows. -/
theorem written (baseUrl : String) {skip : Int} (nonneg : 0 ≤ skip) :
    let envelope := Envelope.build (Page.slice ⟨skip, perPage⟩ ordered) ordered.length skip perPage
    PageLinks.build settings (QueryString.decoded settings options skip perPage) envelope baseUrl =
      .ok (.writtenLinks settings (QueryString.decoded settings options skip perPage) baseUrl
        envelope) := by
  intro envelope
  have size : envelope.perPage = perPage := if_pos paged.positive
  have positive : 0 < envelope.perPage := size ▸ paged.positive
  have terms := QueryString.terms_writable_of_texts settings
    (QueryString.decoded_are_texts settings options skip perPage)
  exact PageLinks.build_of_fitting terms positive (Envelope.current_page_counted _ nonneg
    (Int.le_of_lt paged.positive)) (size ▸ paged.short)
    (Envelope.last_page_starts_short _ positive paged.countable)

theorem answers (baseUrl : String) (index : Nat)
    (starts : index = 0 ∨ index * perPage < ordered.length) :
    (pageVisit settings baseUrl options ordered perPage index).Answers rows rootAlias access
      settings baseUrl (QueryString.decoded settings options (index * perPage) perPage) := by
  have nonneg : 0 ≤ index * perPage := Int.mul_nonneg (Int.natCast_nonneg index)
    (Int.le_of_lt paged.positive)
  have small : index * perPage < (10 ^ IntegerTooLong.limit : Nat) := by
    rcases starts with rfl | before
    · rw [Int.natCast_zero, Int.zero_mul]
      exact IntegerTooLong.bound_positive
    · exact Int.lt_trans before paged.countable
  have page : Page.ofSettings (QueryString.decoded settings options (index * perPage) perPage)
      settings = ⟨index * perPage, perPage⟩ := by
    rw [QueryString.page_of_decoded options paged.distinct nonneg (Int.le_of_lt paged.positive),
      paged.settled, QueryString.broughtBack, if_pos small]
  have given : Collection.Gives rows rootAlias access settings
      (QueryString.decoded settings options (index * perPage) perPage) ordered :=
    paged.gives.of_same_terms settings.maxTop fun key term =>
      (QueryString.decoded_holds paged.distinct paged.texts _ _ term).symm
  have responds := given.responds
  rw [page] at responds
  refine ⟨rfl, responds, ?_⟩
  rw [Session.links_of_respond, responds]
  exact congrArg (Except.mapError Failure.unwritable) (paged.written baseUrl nonneg)

theorem next_link (baseUrl : String) (index : Nat) :
    (pageVisit settings baseUrl options ordered perPage index).links.next =
      if (index + 1 : Int) < max (Envelope.pageCount ordered.length perPage) 1 then
        some (PageLinks.writtenLink settings
          (QueryString.decoded settings options (index * perPage) perPage) baseUrl perPage
          (index + 1 + 1))
      else none := by
  have current : Int.fdiv (index * perPage) perPage = index :=
    Int.mul_fdiv_cancel _ (Int.ne_of_gt paged.positive)
  unfold pageVisit PageLinks.writtenLinks PageLinks.nextPage? Envelope.build
  simp only [paged.positive, if_true, current]
  split <;> rfl

theorem next_target (baseUrl : String) (index : Nat) :
    PageLinks.target? baseUrl (PageLinks.writtenLink settings
        (QueryString.decoded settings options (index * perPage) perPage) baseUrl perPage
        (index + 1 + 1)) =
      some (QueryString.decoded settings options ((index + 1 : Nat) * perPage) perPage) := by
  rw [PageLinks.target_of_link paged.distinct, QueryString.decoded_again paged.distinct paged.texts,
    Int.add_sub_cancel]
  rfl

theorem walk_from (baseUrl : String) {count : Nat}
    (whole : (count : Int) = max (Envelope.pageCount ordered.length perPage) 1)
    (remaining index : Nat) (left : index + remaining + 1 = count) :
    Walk rows rootAlias access settings baseUrl
      (QueryString.decoded settings options (index * perPage) perPage)
      ((List.range' index (remaining + 1)).map
        (pageVisit settings baseUrl options ordered perPage)) := by
  have answers {index : Nat} (within : index < count) :=
    paged.answers baseUrl index (by
      rcases Nat.eq_zero_or_pos index with first | later
      · exact .inl first
      · exact .inr ((Envelope.before_page_count paged.positive _ _).mp (by omega)))
  -- On the pages still to come: the options of each visit are those that the link before it named.
  induction remaining generalizing index with
  | zero =>
      have last := paged.next_link baseUrl index
      rw [if_neg (by omega)] at last
      exact .ends (answers (by omega)) last
  | succ remaining induction =>
      have next := paged.next_link baseUrl index
      rw [if_pos (by omega)] at next
      rw [List.range'_succ, List.map_cons]
      exact .goesOn (answers (by omega)) next (paged.next_target baseUrl index)
        (induction (index + 1) (by omega))

theorem data_of_pages (baseUrl : String) {count : Nat}
    (whole : (count : Int) = max (Envelope.pageCount ordered.length perPage) 1) :
    ((List.range count).map (pageVisit settings baseUrl options ordered perPage)).flatMap
      (fun visit => visit.envelope.data) = ordered := by
  obtain ⟨size, rfl⟩ := Int.eq_ofNat_of_zero_le (Int.le_of_lt paged.positive)
  have data (index : Nat) :
      (pageVisit settings baseUrl options ordered size index).envelope.data =
        (ordered.drop (index * size)).take size := by
    have skip : ((index : Int) * size).toNat = index * size := by
      rw [← Int.natCast_mul, Int.toNat_natCast]
    have limited : (size : Int) ≠ 0 := Int.ne_of_gt paged.positive
    change Page.slice ⟨index * size, size⟩ ordered = _
    unfold Page.slice
    dsimp only
    rw [if_neg limited, skip, Int.toNat_natCast]
  have covered : ordered.length ≤ count * size := by
    have last := (Envelope.before_page_count paged.positive ordered.length count).not.mp (by omega)
    rw [← Int.natCast_mul] at last
    omega
  rw [List.flatMap_map]
  simp only [data]
  rw [Page.pages_append, List.take_of_length_le covered]

end IsPaged

def withoutBounds (settings : Settings) (options : List (String × Value)) :
    List (String × Value) :=
  options.filter fun option => option.1 ∉ settings.boundKeys

theorem option_without_bounds {settings : Settings} (options : List (String × Value))
    (key : String) :
    Page.optionValue (withoutBounds settings options) key =
      if key ∈ settings.boundKeys then .null
      else Page.optionValue options key := by
  unfold Page.optionValue Value.lookup withoutBounds
  induction options with
  | nil =>
      rw [List.filter_nil, List.find?_nil]
      exact (ite_self Value.null).symm
  | cons option options induction =>
      by_cases bounds : option.1 ∈ settings.boundKeys
      · rw [List.filter_cons_of_neg (by simpa [← or_iff_not_imp_left] using bounds), induction]
        by_cases same : option.1 = key
        · rw [if_pos (same ▸ bounds), if_pos (same ▸ bounds)]
        · rw [List.find?_cons_of_neg (by simpa using same)]
      · rw [List.filter_cons_of_pos (by simpa using bounds)]
        by_cases same : option.1 = key
        · rw [if_neg (same ▸ bounds), List.find?_cons_of_pos (by simpa using same),
            List.find?_cons_of_pos (by simpa using same)]
        · rw [List.find?_cons_of_neg (by simpa using same), induction,
            List.find?_cons_of_neg (by simpa using same)]

theorem IsPaged.executes_without_bounds [Memory.Attributes] {rows : List Value} {rootAlias : String} {access : Access}
    {settings : Settings} {options : List (String × Value)} {ordered : List Value} {perPage : Int}
    (paged : IsPaged rows rootAlias access settings options ordered perPage) :
    (Collection.ask rows rootAlias access { settings with maxTop := none }
      (withoutBounds settings options)).execute.2 = .ok ⟨ordered, ordered.length⟩ := by
  have gives : Collection.Gives rows rootAlias access { settings with maxTop := none }
      (withoutBounds settings options) ordered := by
    refine paged.gives.of_same_terms none fun key term => ?_
    rw [option_without_bounds, if_neg (settings.term_not_bound paged.distinct term)]
  have page : Page.ofSettings (withoutBounds settings options) { settings with maxTop := none } =
      ⟨0, 0⟩ := by
    refine Page.of_settings_without_bounds _ rfl fun key bound => ?_
    have isBound : key ∈ settings.boundKeys := bound
    rw [option_without_bounds, if_pos isBound]
  rw [gives.executes, page]
  rfl

section Response

variable [Memory.Attributes] {rows : List Value} {rootAlias : String} {access : Access} {settings : Settings}
  {options : List (String × Value)} {baseUrl : String} {envelope : Envelope} {links : PageLinks}

theorem paged_of_links (distinct : settings.keys.Nodup) (texts : AreTexts options)
    (countable : rows.length < 10 ^ IntegerTooLong.limit)
    (responds : (Collection.ask rows rootAlias access settings options).respond.2 = .ok envelope)
    (built : PageLinks.build settings options envelope baseUrl = .ok links) (given : links ≠ {}) :
    ∃ ordered, IsPaged rows rootAlias access settings options ordered envelope.perPage ∧
      envelope.total = ordered.length ∧
      max envelope.lastPage 1 = max (Envelope.pageCount ordered.length envelope.perPage) 1 := by
  obtain ⟨ordered, gives⟩ := Collection.gives_of_response responds
  have described := Except.ok.inj (responds.symm.trans gives.responds)
  have size : envelope.perPage = if 0 < (Page.ofSettings options settings).limit then
      (Page.ofSettings options settings).limit else ordered.length :=
    congrArg Envelope.perPage described
  have pages : envelope.lastPage = if 0 < (Page.ofSettings options settings).limit then
      Envelope.pageCount ordered.length (Page.ofSettings options settings).limit else 1 :=
    congrArg Envelope.lastPage described
  have positive : 0 < envelope.perPage := by
    by_contra none
    rw [PageLinks.build, if_pos (Int.not_lt.mp none)] at built
    exact given (Except.ok.inj built).symm
  have short := (PageLinks.fitting_of_build distinct positive built).1
  refine ⟨ordered, .of_gives distinct texts countable gives size positive short,
    congrArg Envelope.total described, ?_⟩
  by_cases limited : 0 < (Page.ofSettings options settings).limit
  · rw [if_pos limited] at size pages
    rw [size, pages]
  · rw [if_neg limited] at size pages
    rw [size] at positive
    rw [size, pages, Envelope.page_count_self positive]

/-- Following the links to the next page from the first link on ends after as many pages as the rows
need, at the page of the last link, and the pages put end to end are the rows that the request
returns without bounds. There is no other way to follow the links. A position among the rows has to
have few enough digits to be read back from a link, which it has in every list that can be held. -/
theorem Walk.meets_every_row (distinct : settings.keys.Nodup) (texts : AreTexts options)
    (countable : rows.length < 10 ^ IntegerTooLong.limit)
    (responds : (Collection.ask rows rootAlias access settings options).respond.2 = .ok envelope)
    (linked : ((Collection.ask rows rootAlias access settings options).links baseUrl).2 = .ok links)
    (given : links ≠ {}) :
    ∃ first last start pages final answer,
      links.first = some first ∧ links.last = some last ∧
      PageLinks.target? baseUrl first = some start ∧
      (∀ others, Walk rows rootAlias access settings baseUrl start others ↔ others = pages) ∧
      (pages.length : Int) = max 1 ⌈(envelope.total : ℚ) / envelope.perPage⌉ ∧
      pages.getLast? = some final ∧ PageLinks.target? baseUrl last = some final.options ∧
      (Collection.ask rows rootAlias access { settings with maxTop := none }
        (withoutBounds settings options)).execute.2 = .ok answer ∧
      pages.flatMap (fun page => page.envelope.data) = answer.rows := by
  have built : PageLinks.build settings options envelope baseUrl = .ok links := by
    rw [Session.links_of_respond, responds] at linked
    exact ok_of_map_error linked
  obtain ⟨ordered, paged, total, lastPage⟩ :=
    paged_of_links distinct texts countable responds built given
  obtain ⟨before, whole⟩ : ∃ before : Nat, ((before + 1 : Nat) : Int) =
      max (Envelope.pageCount ordered.length envelope.perPage) 1 :=
    ⟨(max (Envelope.pageCount ordered.length envelope.perPage) 1 - 1).toNat, by omega⟩
  obtain ⟨_, rfl⟩ := (PageLinks.build_eq_ok_iff paged.positive).mp built
  have walk := paged.walk_from baseUrl whole before 0 (by omega)
  rw [← List.range_eq_range'] at walk
  let pages := (List.range (before + 1)).map
    (pageVisit settings baseUrl options ordered envelope.perPage)
  refine ⟨_, _, _, pages, pageVisit settings baseUrl options ordered envelope.perPage before,
    ⟨ordered, ordered.length⟩, rfl, rfl,
    PageLinks.target_of_link distinct options baseUrl envelope.perPage 1, ?_, ?_, ?_, ?_, ?_, ?_⟩
  · intro others
    have start : (1 - 1 : Int) * envelope.perPage = ((0 : Nat) : Int) * envelope.perPage := rfl
    rw [start]
    constructor
    · exact fun other => other.unique walk
    · rintro rfl
      exact walk
  · rw [List.length_map, List.length_range, whole, total,
      Envelope.page_count_eq_ceil paged.positive, max_comm]
  · simp [pages, List.range_succ]
  · rw [PageLinks.target_of_link distinct, lastPage, ← whole]
    simp [pageVisit]
  · exact paged.executes_without_bounds
  · exact paged.data_of_pages baseUrl whole

end Response

attribute [local instance] Memory.Attributes.bare in
/-- Three of four people are old enough and go on two pages; the request asked for something in
between. -/
theorem Walk.meets_every_adult :
    let people : List Value := [.record [("name", .text "Ann"), ("age", .integer 30)],
      .record [("name", .text "Bob"), ("age", .integer 17)],
      .record [("name", .text "Cid"), ("age", .integer 41)],
      .record [("name", .text "Dora"), ("age", .integer 22)]]
    let options := [("$filter", Value.text "age gt 18"), ("$orderby", .text "name desc"),
      ("$top", .text "2"), ("$skip", .text "1")]
    ∃ links first start pages,
      ((Collection.ask people "entity" {} {} options).links "/people").2 = .ok links ∧
      links.first = some first ∧ PageLinks.target? "/people" first = some start ∧
      Walk people "entity" {} {} "/people" start pages ∧ pages.length = 2 ∧
      (pages.flatMap fun page => page.envelope.data).map
        (fun row => (Memory.resolve row "name").plainText) = ["Dora", "Cid", "Ann"] := by
  intro people options
  let session := Collection.ask people "entity" {} {} options
  have numbers : session.respond.2.toOption.map (fun envelope =>
      (envelope.total, envelope.perPage)) = some (3, 2) := by decide +kernel
  have linked : ((session.links "/people").2.toOption.bind PageLinks.first).isSome = true := by
    decide +kernel
  have names : (Collection.ask people "entity" {} {}
      (withoutBounds {} options)).execute.2.toOption.map (fun answer =>
        answer.rows.map fun row => (Memory.resolve row "name").plainText) =
          some ["Dora", "Cid", "Ann"] := by decide +kernel
  cases responds : session.respond.2 with
  | error failure => rw [responds] at numbers; cases numbers
  | ok envelope =>
      cases gave : (session.links "/people").2 with
      | error failure => rw [gave] at linked; cases linked
      | ok links =>
          have given : links ≠ {} := by
            rintro rfl
            rw [gave] at linked
            cases linked
          have texts : AreTexts options := by
            intro option member
            simp only [options, List.mem_cons, List.not_mem_nil, or_false] at member
            rcases member with rfl | rfl | rfl | rfl <;> exact ⟨_, rfl⟩
          have countable : people.length < 10 ^ IntegerTooLong.limit :=
            Nat.lt_of_lt_of_le (by decide : people.length < 10 ^ 1)
              (Nat.pow_le_pow_right (by decide) (by decide))
          obtain ⟨first, _, start, pages, _, answer, opens, _, target, only, count, _, _, executes,
            data⟩ := Walk.meets_every_row (by decide) texts countable responds gave given
          rw [responds] at numbers
          obtain ⟨total, perPage⟩ := Prod.mk.inj (Option.some.inj numbers)
          rw [total, perPage, ← Envelope.page_count_eq_ceil (by decide)] at count
          have plainSettings : ({ ({} : Settings) with maxTop := none } : Settings) = {} := rfl
          rw [plainSettings] at executes
          rw [executes] at names
          refine ⟨links, first, start, pages, rfl, opens, target, (only pages).mpr rfl, ?_, ?_⟩
          · exact Int.ofNat_inj.mp count
          · rw [data]
            exact Option.some.inj names

end QueryOptions
