import QueryOptions.Proofs.Request.Shape

/-!
What strict reading refuses is what lenient reading drops. Both policies go through the same parts;
as long as nothing is dropped they take over the same ones, and a strict request is rejected as
soon as something would be. So a strict request that returns is a lenient one.
-/

namespace QueryOptions

/-- How a strict reading stands to a lenient one: they give the same when nothing is dropped, and
otherwise the strict one is rejected, whatever the lenient one gives. -/
inductive Tightens {ε α : Type} (rejected : Rejection → ε) (drops : Prop) :
    (strict lenient : Except ε α) → Prop where
  | agrees {value : α} (whole : ¬drops) : Tightens rejected drops (.ok value) (.ok value)
  | refuses {rejection : Rejection} {lenient : Except ε α} (lossy : drops) :
      Tightens rejected drops (.error (rejected rejection)) lenient

namespace Tightens

variable {ε α β : Type} {rejected : Rejection → ε} {drops others : Prop}
  {strict lenient : Except ε α}

theorem congr (tightens : Tightens rejected drops strict lenient) (same : drops ↔ others) :
    Tightens rejected others strict lenient := by
  cases tightens with
  | agrees whole => exact .agrees (mt same.mpr whole)
  | refuses lossy => exact .refuses (same.mp lossy)

theorem bind {strictNext lenientNext : α → Except ε β}
    (tightens : Tightens rejected drops strict lenient)
    (next : ∀ value, strict = .ok value →
      Tightens rejected others (strictNext value) (lenientNext value)) :
    Tightens rejected (drops ∨ others) (strict >>= strictNext) (lenient >>= lenientNext) := by
  cases tightens with
  | @agrees value whole =>
      refine (next value rfl).congr ?_
      simp [whole]
  | refuses lossy => exact .refuses (.inl lossy)

theorem map (tightens : Tightens rejected drops strict lenient) (f : α → β) :
    Tightens rejected drops (f <$> strict) (f <$> lenient) := by
  cases tightens with
  | agrees whole => exact .agrees whole
  | refuses lossy => exact .refuses lossy

theorem map_error {η : Type} (tightens : Tightens rejected drops strict lenient) (f : ε → η) :
    Tightens (f ∘ rejected) drops (strict.mapError f) (lenient.mapError f) := by
  cases tightens with
  | agrees whole => exact .agrees whole
  | refuses lossy => exact .refuses lossy

theorem ok_of_ok (tightens : Tightens rejected drops strict lenient) {value : α}
    (returned : strict = .ok value) : lenient = .ok value := by
  cases tightens with
  | agrees whole => exact returned
  | refuses lossy => cases returned

theorem ok_iff (tightens : Tightens rejected drops strict lenient) :
    (∃ value, strict = .ok value) ↔ ¬drops := by
  cases tightens with
  | agrees whole => simp [whole]
  | refuses lossy => simp [lossy]

theorem rejected_iff (tightens : Tightens rejected drops strict lenient) :
    (∃ rejection, strict = .error (rejected rejection)) ↔ drops := by
  cases tightens with
  | agrees whole => simp [whole]
  | refuses lossy => simp [lossy]

end Tightens

theorem settle_tightens {α : Type} (result : Except Rejection α) :
    Tightens id (∀ part, result.toOption ≠ some part) (Strictness.strict.settle result)
      (Strictness.lenient.settle result) := by
  cases result with
  | error rejection => exact .refuses fun part found => by cases found
  | ok part => exact .agrees fun dropped => dropped part rfl

theorem settled_strictly {α : Type} {result : Except Rejection α} {part : α}
    (settled : Strictness.strict.settle result = .ok (some part)) :
    result.toOption = some part := by
  cases result with
  | error rejection => cases settled
  | ok _ =>
      cases settled
      rfl

theorem settle_then_tightens {α : Type} {result : Except Rejection α} {drops : Prop}
    {strictRest lenientRest : Except Rejection (List α)}
    (rest : Tightens id drops strictRest lenientRest) :
    Tightens id ((∀ part, result.toOption ≠ some part) ∨ drops)
      (do return (← Strictness.strict.settle result).toList ++ (← strictRest))
      (do return (← Strictness.lenient.settle result).toList ++ (← lenientRest)) :=
  (settle_tightens result).bind fun part _ => rest.map (part.toList ++ ·)

namespace Scope

def under (scope : Scope) (strictness : Strictness) : Scope :=
  { scope with strictness := strictness }

/-- Some fragment gives no predicate; the first one has the given position. -/
def DropsFrom (scope : Scope) (position : Int) (fragments : List String) : Prop :=
  ∃ (index : Nat) (fragment : String), fragments[index]? = some fragment ∧
    ∀ predicate, ¬scope.Admits (position + index) fragment predicate

theorem drops_from_nil (scope : Scope) (position : Int) : ¬scope.DropsFrom position [] := by
  rintro ⟨index, fragment, found, _⟩
  cases found

theorem drops_from_cons (scope : Scope) (position : Int) (fragment : String)
    (rest : List String) :
    scope.DropsFrom position (fragment :: rest) ↔
      (∀ predicate, ¬scope.Admits position fragment predicate) ∨
        scope.DropsFrom (position + 1) rest := by
  constructor
  · rintro ⟨index, other, found, dropped⟩
    cases index with
    | zero =>
        cases found
        exact .inl (by simpa using dropped)
    | succ index =>
        have same : position + ((index + 1 : Nat) : Int) = position + 1 + index := by omega
        rw [same] at dropped
        exact .inr ⟨index, other, found, dropped⟩
  · rintro (dropped | ⟨index, other, found, dropped⟩)
    · exact ⟨0, fragment, rfl, by simpa using dropped⟩
    · have same : position + 1 + index = position + ((index + 1 : Nat) : Int) := by omega
      rw [same] at dropped
      exact ⟨index + 1, other, found, dropped⟩

theorem admits_iff_authorised (scope : Scope) {position : Int} {fragment : String}
    {clause : Clause}
    (found : Grammar.standard.readClause fragment.toList position = some clause)
    (readable : clause.IsReadable) :
    (∃ predicate, scope.Admits position fragment predicate) ↔
      scope.authorise clause.field = .ok () := by
  rw [authorise_iff]
  constructor
  · rintro ⟨predicate, other, ⟨foundOther, authorised⟩, _⟩
    rw [found] at foundOther
    cases foundOther
    exact authorised
  · intro authorised
    obtain ⟨predicate, _, built, _⟩ :=
      scope.predicate_same_shape ⟨rfl, rfl, rfl⟩ readable readable position
    exact ⟨predicate, clause, ⟨found, authorised⟩, built, predicate_field built⟩

theorem resolve_tightens (scope : Scope) {clause : Clause} (readable : clause.IsReadable) :
    Tightens ClauseFailure.rejected (scope.authorise clause.field ≠ .ok ())
      ((scope.under .strict).resolve clause) ((scope.under .lenient).resolve clause) := by
  have sameCheck (strictness : Strictness) :
      (scope.under strictness).authorise clause.field = scope.authorise clause.field := rfl
  have sameBuild (strictness : Strictness) (index : Int) :
      (scope.under strictness).predicate clause index = scope.predicate clause index := rfl
  obtain ⟨predicate, _, built, _⟩ :=
    scope.predicate_same_shape ⟨rfl, rfl, rfl⟩ readable readable clause.position
  simp only [resolve, sameCheck, sameBuild, Option.getD_none, built]
  cases scope.authorise clause.field with
  | error rejection => exact .refuses fun authorised => by cases authorised
  | ok _ => exact .agrees fun unauthorised => unauthorised rfl

/-- Reading fragments and then resolving their clauses. The strict policy has two places to reject
a fragment, and it reads all fragments before it resolves any. -/
theorem fragments_tighten (scope : Scope) (position : Int) (fragments : List String) :
    (∃ clauses,
      Filter.readFragments .standard .strict position fragments = .ok clauses ∧
        Filter.readFragments .standard .lenient position fragments = .ok clauses ∧
        ((∀ clause ∈ clauses, clause.IsReadable) →
          Tightens ClauseFailure.rejected (scope.DropsFrom position fragments)
            ((scope.under .strict).resolveAll clauses)
            ((scope.under .lenient).resolveAll clauses))) ∨
      (∃ rejection,
        Filter.readFragments .standard .strict position fragments = .error rejection) ∧
        scope.DropsFrom position fragments := by
  induction fragments generalizing position with
  | nil => exact .inl ⟨[], rfl, rfl, fun _ => .agrees (scope.drops_from_nil position)⟩
  | cons fragment rest induction =>
      have drops := scope.drops_from_cons position fragment rest
      cases found : Grammar.standard.readClause fragment.toList position with
      | none =>
          have unread (predicate : Predicate) : ¬scope.Admits position fragment predicate := by
            rintro ⟨clause, ⟨foundClause, _⟩, _⟩
            rw [found] at foundClause
            cases foundClause
          refine .inr ⟨?_, drops.mpr (.inl unread)⟩
          simp only [Filter.readFragments, Filter.readFragment, found]
          exact ⟨_, rfl⟩
      | some clause =>
          have reads (strictness : Strictness) :
              Filter.readFragments .standard strictness position (fragment :: rest) =
                (clause :: ·) <$>
                  Filter.readFragments .standard strictness (position + 1) rest := by
            simp only [Filter.readFragments, Filter.readFragment, found]
            rfl
          rcases induction (position + 1) with
            ⟨clauses, strictRead, lenientRead, resolved⟩ | ⟨⟨rejection, failed⟩, dropped⟩
          · refine .inl ⟨clause :: clauses, ?_, ?_, ?_⟩
            · rw [reads, strictRead]
              rfl
            · rw [reads, lenientRead]
              rfl
            · intro readable
              have head := scope.resolve_tightens (readable clause (by simp))
              have tail := resolved fun other member => readable other (by simp [member])
              have both := head.bind fun part _ => tail.map (part.toList ++ ·)
              refine both.congr ?_
              rw [drops]
              refine or_congr_left ?_
              rw [← not_exists, scope.admits_iff_authorised found (readable clause (by simp))]
          · refine .inr ⟨⟨rejection, ?_⟩, drops.mpr (.inr dropped)⟩
            rw [reads, failed]
            rfl

end Scope

/-- An entry of a sort option that is not blank and gives no sort. -/
def Access.DropsEntry (access : Access) (entry : List Char) : Prop :=
  entry.all Text.isBlank = false ∧ ∀ sort, ¬access.AdmitsSort entry sort

theorem SortKey.read_entries_tighten (access : Access) (entries : List (List Char)) :
    Tightens id (∃ entry ∈ entries, access.DropsEntry entry)
      (readEntries access .strict entries) (readEntries access .lenient entries) := by
  induction entries with
  | nil => exact .agrees (by simp)
  | cons entry entries induction =>
      rw [List.exists_mem_cons_iff]
      cases blank : entry.all Text.isBlank with
      | true =>
          simp only [readEntries, blank, if_true]
          exact induction.congr (by simp [Access.DropsEntry, blank])
      | false =>
          simp only [readEntries, blank, Bool.false_eq_true, if_false]
          refine (settle_then_tightens induction).congr (or_congr_left ?_)
          simp only [Access.DropsEntry, blank, true_and, admits_sort_iff, ne_eq]

namespace Expansion

def accepted (access : Access) (names : List String) : List String :=
  (names.filter fun relation => access.AdmitsRelation relation).eraseDups

/-- Some name that is neither blank nor accepted already is not accepted where it stands. -/
def DropsName (access : Access) (names : List String) : Prop :=
  ∃ before name after, names = before ++ name :: after ∧ name ≠ "" ∧
    name ∉ accepted access before ∧ accepted access (before ++ [name]) = accepted access before

theorem mem_accepted (access : Access) (names : List String) (relation : String) :
    relation ∈ accepted access names ↔ relation ∈ names ∧ access.AdmitsRelation relation := by
  rw [accepted, List.mem_eraseDups, List.mem_filter, decide_eq_true_iff]

/-- A name is dropped for what it says alone, not for where it stands. -/
theorem drops_name_iff (access : Access) (names : List String) :
    DropsName access names ↔ ∃ name ∈ names, name ≠ "" ∧ ¬access.AdmitsRelation name := by
  constructor
  · rintro ⟨before, name, after, rfl, given, fresh, unchanged⟩
    refine ⟨name, by simp, given, ?_⟩
    intro admitted
    refine fresh ?_
    rw [← unchanged]
    exact (mem_accepted access _ name).mpr ⟨by simp, admitted⟩
  · rintro ⟨name, member, given, refused⟩
    obtain ⟨before, after, rfl⟩ := List.append_of_mem member
    refine ⟨before, name, after, rfl, given, ?_, ?_⟩
    · intro known
      exact refused ((mem_accepted access before name).mp known).2
    · simp [accepted, List.filter_append, refused]

theorem read_relation_ok_iff (access : Access) (relation part : String) :
    (readRelation access relation).toOption = some part ↔
      access.AdmitsRelation relation ∧ part = relation := by
  rw [read_relation_to_option]
  by_cases usable : accepts access relation = true
  · simp [usable, (accepts_iff_admits access relation).mp usable, eq_comm]
  · simp [usable, mt (accepts_iff_admits access relation).mpr usable]

theorem read_entries_tighten (access : Access) (known : List String)
    (entries : List (List Char)) (admitted : ∀ relation ∈ known, access.AdmitsRelation relation) :
    Tightens id
      (∃ name ∈ entries.map fun entry => String.ofList (Text.trim entry),
        name ≠ "" ∧ ¬access.AdmitsRelation name)
      (readEntries access .strict known entries) (readEntries access .lenient known entries) := by
  induction entries generalizing known with
  | nil => exact .agrees (by simp)
  | cons entry entries induction =>
      let name := String.ofList (Text.trim entry)
      have shown : String.ofList (Text.trim entry) = name := rfl
      simp only [readEntries, List.map_cons, shown]
      by_cases skipped : (name.isEmpty || known.contains name) = true
      -- A skipped name is blank or repeats an admitted one, so skipping it drops nothing.
      · have harmless : ¬(name ≠ "" ∧ ¬access.AdmitsRelation name) := by
          rintro ⟨given, refused⟩
          rcases Bool.or_eq_true_iff.mp skipped with blank | repeated
          · exact given (String.isEmpty_iff.mp blank)
          · exact refused (admitted name (List.contains_iff_mem.mp repeated))
        rw [if_pos skipped, if_pos skipped]
        exact (induction known admitted).congr (by simp [harmless])
      · have given : name ≠ "" := by
          intro blank
          rw [blank] at skipped
          exact skipped rfl
        rw [if_neg skipped, if_neg skipped]
        have head := settle_tightens (readRelation access name)
        refine (head.bind fun found taken => induction (known ++ found.toList) ?_).congr ?_
        · intro relation member
          rcases List.mem_append.mp member with earlier | now
          · exact admitted relation earlier
          · obtain rfl := Option.mem_toList.mp now
            have read := (read_relation_ok_iff access name relation).mp (settled_strictly taken)
            rw [read.2]
            exact read.1
        · simp [given, read_relation_ok_iff]

end Expansion

theorem Filter.read_lenient_returns (grammar : Grammar) (value : Value) :
    ∃ clauses, Filter.read grammar .lenient value = .ok clauses := by
  rw [read_eq_read_fragments]
  generalize value.parts fragments = parts, (0 : Int) = position
  induction parts generalizing position with
  | nil => exact ⟨[], rfl⟩
  | cons fragment rest induction =>
      obtain ⟨clauses, read⟩ := induction (position + 1)
      rw [read_fragments_lenient, read]
      exact ⟨_, rfl⟩

theorem Scope.resolve_all_lenient_returns (scope : Scope) (lenient : scope.strictness = .lenient)
    {clauses : List Clause} (readable : ∀ clause ∈ clauses, clause.IsReadable) :
    ∃ predicates, scope.resolveAll clauses = .ok predicates := by
  induction clauses with
  | nil => exact ⟨[], rfl⟩
  | cons clause clauses induction =>
      obtain ⟨predicates, resolved⟩ :=
        induction fun other member => readable other (List.mem_cons_of_mem clause member)
      obtain ⟨predicate, _, built, _⟩ := scope.predicate_same_shape ⟨rfl, rfl, rfl⟩
        (readable clause List.mem_cons_self) (readable clause List.mem_cons_self) clause.position
      rw [resolveAll, resolve_lenient scope lenient, built, resolved]
      split
      · exact ⟨_, rfl⟩
      · exact ⟨_, rfl⟩

namespace Request

def under (request : Request) (strictness : Strictness) : Request :=
  { request with settings := { request.settings with strictness := strictness } }

def HasShortLiterals (request : Request) : Prop :=
  ∀ clauses,
    Filter.read .standard .lenient (request.option request.settings.filterKey) = .ok clauses →
      ∀ clause ∈ clauses, clause.IsReadable

theorem lenient_reads_rest (request : Request)
    (lenient : request.settings.strictness = .lenient) :
    ∃ sorts expansions, request.readSorts = .ok sorts ∧
      request.readExpansions = .ok expansions := by
  have readSort : ∃ sorts, request.readSorts = .ok sorts := by
    unfold readSorts
    rw [lenient, SortKey.read_eq_read_entries, SortKey.read_entries_lenient]
    exact ⟨_, rfl⟩
  have readExpand : ∃ expansions, request.readExpansions = .ok expansions := by
    unfold readExpansions
    rw [lenient, Expansion.read_lenient]
    exact ⟨_, rfl⟩
  obtain ⟨sorts, readSort⟩ := readSort
  obtain ⟨expansions, readExpand⟩ := readExpand
  exact ⟨sorts, expansions, readSort, readExpand⟩

theorem lenient_reads (request : Request) (lenient : request.settings.strictness = .lenient)
    (short : request.HasShortLiterals) :
    ∃ predicates sorts expansions, request.readPredicates = .ok predicates ∧
      request.readSorts = .ok sorts ∧ request.readExpansions = .ok expansions := by
  obtain ⟨clauses, read⟩ := Filter.read_lenient_returns .standard
    (request.option request.settings.filterKey)
  obtain ⟨predicates, resolved⟩ :=
    request.scope.resolve_all_lenient_returns lenient (short clauses read)
  have readFilter : request.readPredicates = .ok predicates :=
    (request.read_predicates_iff predicates).mpr ⟨clauses, lenient ▸ read, resolved⟩
  obtain ⟨sorts, expansions, readSort, readExpand⟩ := request.lenient_reads_rest lenient
  exact ⟨predicates, sorts, expansions, readFilter, readSort, readExpand⟩

def DropsFragment (request : Request) : Prop :=
  request.scope.DropsFrom 0
    ((request.option request.settings.filterKey).parts Filter.fragments)

def DropsSort (request : Request) : Prop :=
  ∃ entry ∈ (request.option request.settings.orderbyKey).parts fun text =>
    Text.splitAtChar ',' text.toList, request.access.DropsEntry entry

def DropsExpansion (request : Request) : Prop :=
  Expansion.DropsName request.access
    (Expansion.names (request.option request.settings.expandKey))

def Drops (request : Request) : Prop :=
  request.DropsFragment ∨ request.DropsSort ∨ request.DropsExpansion

variable (request : Request)

theorem read_predicates_tighten (short : request.HasShortLiterals) :
    Tightens Failure.rejected request.DropsFragment (request.under .strict).readPredicates
      (request.under .lenient).readPredicates := by
  let parts := (request.option request.settings.filterKey).parts Filter.fragments
  have reads (strictness : Strictness) :
      Filter.read .standard (request.under strictness).settings.strictness
          ((request.under strictness).option (request.under strictness).settings.filterKey) =
        Filter.readFragments .standard strictness 0 parts :=
    Filter.read_eq_read_fragments .standard strictness _
  have sameScope (strictness : Strictness) :
      (request.under strictness).scope = request.scope.under strictness := rfl
  simp only [readPredicates, reads, sameScope]
  rcases request.scope.fragments_tighten 0 parts with
    ⟨clauses, strictRead, lenientRead, resolved⟩ | ⟨⟨rejection, failed⟩, dropped⟩
  · have tightens := resolved (short clauses
      ((Filter.read_eq_read_fragments .standard .lenient _).trans lenientRead))
    rw [strictRead, lenientRead]
    dsimp only
    generalize (request.scope.under .strict).resolveAll clauses = strict at tightens ⊢
    generalize (request.scope.under .lenient).resolveAll clauses = lenient at tightens ⊢
    cases tightens with
    | agrees whole => exact .agrees whole
    | refuses lossy => exact .refuses lossy
  · rw [failed]
    exact .refuses dropped

theorem read_sorts_tighten :
    Tightens Failure.rejected request.DropsSort (request.under .strict).readSorts
      (request.under .lenient).readSorts := by
  unfold readSorts
  simp only [SortKey.read_eq_read_entries]
  exact (SortKey.read_entries_tighten _ _).map_error Failure.rejected

theorem read_expansions_tighten :
    Tightens Failure.rejected request.DropsExpansion (request.under .strict).readExpansions
      (request.under .lenient).readExpansions := by
  unfold readExpansions
  simp only [Expansion.read_eq_read_entries]
  have read := Expansion.read_entries_tighten request.access []
    ((request.option request.settings.expandKey).parts fun text =>
      Text.splitAtChar ',' text.toList) (by simp)
  exact (read.congr (Expansion.drops_name_iff _ _).symm).map_error Failure.rejected

theorem apply_tightens (fresh : request.page = none) (short : request.HasShortLiterals) :
    Tightens Failure.rejected request.Drops (request.under .strict).apply.result
      (request.under .lenient).apply.result := by
  have samePage : Tightens Failure.rejected False
      (pure (Page.ofSettings request.options request.settings))
      (pure (Page.ofSettings request.options request.settings)) := .agrees not_false
  have stages := (request.read_predicates_tighten short).bind fun _ _ =>
    request.read_sorts_tighten.bind fun _ _ =>
      request.read_expansions_tighten.bind fun _ _ => samePage
  rw [apply_result (request.under .strict) fresh, apply_result (request.under .lenient) fresh]
  exact stages.congr (by rw [Drops, or_false])

theorem apply_calls_of_strict (fresh : request.page = none) (short : request.HasShortLiterals)
    {page : Page} (returned : (request.under .strict).apply.result = .ok page) :
    (request.under .lenient).apply.calls = (request.under .strict).apply.calls := by
  obtain ⟨predicates, sorts, expansions, readFilter, readSort, readExpand, _⟩ :=
    apply_returns (request.under .strict) fresh returned
  have lenientFilter := (request.read_predicates_tighten short).ok_of_ok readFilter
  have lenientSort := request.read_sorts_tighten.ok_of_ok readSort
  have lenientExpand := request.read_expansions_tighten.ok_of_ok readExpand
  rw [apply_of_reads (request.under .strict) fresh readFilter readSort readExpand,
    apply_of_reads (request.under .lenient) fresh lenientFilter lenientSort lenientExpand]
  rfl

/-- A strict request that returns gives the page of the lenient one after the same calls, and it is
rejected exactly when the lenient one drops something. -/
theorem strict_is_lenient_without_drops (fresh : request.page = none)
    (short : request.HasShortLiterals) :
    let strict := (request.under .strict).apply
    let lenient := (request.under .lenient).apply
    (∀ page, strict.result = .ok page →
      lenient.result = .ok page ∧ lenient.calls = strict.calls) ∧
    ((∃ page, strict.result = .ok page) ↔ ¬request.Drops) ∧
    ((∃ rejection, strict.result = .error (.rejected rejection)) ↔ request.Drops) := by
  intro strict lenient
  have tightens := request.apply_tightens fresh short
  refine ⟨?_, ?_, tightens.rejected_iff⟩
  · intro page returned
    exact ⟨tightens.ok_of_ok returned, request.apply_calls_of_strict fresh short returned⟩
  · exact tightens.ok_iff

/-- A request with a blank sort entry and a repeated relation, which drop nothing. -/
def tolerated : Request where
  options := [
    ("$filter", .text "age gt 18"),
    ("$orderby", .text "name ASC, ,age DESC"),
    ("$expand", .text "posts,posts")]
  access := { filterable := ["age"], expandable := ["posts"] }

def overreaching : Request :=
  { tolerated with options := ("$filter", .text "age gt 18 and email eq null") ::
      tolerated.options.tail }

theorem overreaching_strict_is_lenient_without_drops :
    overreaching.HasShortLiterals ∧ overreaching.Drops ∧
      (∃ rejection, (overreaching.under .strict).apply.result = .error (.rejected rejection)) ∧
      tolerated.HasShortLiterals ∧ (tolerated.under .strict).apply.result = .ok ⟨0, 0⟩ ∧
      (tolerated.under .lenient).apply.calls = (tolerated.under .strict).apply.calls := by
  have toleratedShort : tolerated.HasShortLiterals := by
    intro clauses read
    have known : Filter.read .standard .lenient (tolerated.option "$filter") =
        .ok [⟨"age", .comparison .gt, some "18", 0⟩] := ok_of_to_option (by decide +kernel)
    cases known.symm.trans read
    exact Clause.readable_of_short (by decide)
  have overreachingShort : overreaching.HasShortLiterals := by
    intro clauses read
    have known : Filter.read .standard .lenient (overreaching.option "$filter") =
        .ok [⟨"age", .comparison .gt, some "18", 0⟩, ⟨"email", .isNull, none, 1⟩] :=
      ok_of_to_option (by decide +kernel)
    cases known.symm.trans read
    exact Clause.readable_of_short (by decide)
  have dropped : overreaching.Drops := by
    refine .inl ⟨1, "email eq null", by decide +kernel, ?_⟩
    rintro predicate ⟨clause, ⟨found, _, opened⟩, _⟩
    have known : Grammar.standard.readClause "email eq null".toList 1 =
        some ⟨"email", .isNull, none, 1⟩ := by decide +kernel
    cases known.symm.trans found
    revert opened
    decide
  have returned : (tolerated.under .strict).apply.result = .ok ⟨0, 0⟩ :=
    ok_of_to_option (by decide +kernel)
  have whole := strict_is_lenient_without_drops tolerated rfl toleratedShort
  have lossy := strict_is_lenient_without_drops overreaching rfl overreachingShort
  exact ⟨overreachingShort, dropped, lossy.2.2.mpr dropped, toleratedShort, returned,
    (whole.1 _ returned).2⟩

end Request

end QueryOptions
