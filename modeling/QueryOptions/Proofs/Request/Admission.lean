import QueryOptions.Proofs.Request.Reading
import QueryOptions.Proofs.Request.Stages

/-!
Admission: which parts of a request reach the backend. A part is admitted by what it says and by the
allow-list of its kind, nothing else. The calls of a lenient request are the admitted parts in the
order in which they are written, so no part outside its list is passed on and none inside is lost.
-/

namespace QueryOptions

def Scope.AdmitsClause (scope : Scope) (index : Int) (fragment : String) (clause : Clause) :
    Prop :=
  Grammar.standard.readClause fragment.toList index = some clause ∧
    Identifier.isPath clause.field = true ∧ scope.access.filterable.Opens clause.field

/-- The predicate of an admitted fragment is that of its clause, numbered by the fragment. -/
def Scope.Admits (scope : Scope) (index : Int) (fragment : String) (predicate : Predicate) :
    Prop :=
  ∃ clause, scope.AdmitsClause index fragment clause ∧
    scope.predicate clause index = .ok predicate ∧
    predicate.field = qualifyField clause.field scope.rootAlias

/-- An entry gives a sort when it is two words: a path that is open to sorting, and a direction. -/
def Access.AdmitsSort (access : Access) (entry : List Char) (sort : SortKey) : Prop :=
  ∃ direction, Text.words entry = [sort.field.toList, direction] ∧
    Identifier.isPath sort.field = true ∧
    direction.map SortKey.upperLetter = sort.direction.keyword.toList ∧
    access.sortable.Opens sort.field

def Access.AdmitsRelation (access : Access) (relation : String) : Prop :=
  Identifier.isPath relation = true ∧ '.' ∉ relation.toList ∧ access.expandable.Opens relation

instance (access : Access) (relation : String) : Decidable (access.AdmitsRelation relation) :=
  inferInstanceAs (Decidable (_ ∧ _ ∧ _))

namespace Grammar

theorem read_clause_position {grammar : Grammar} {fragment : List Char} {position : Int}
    {clause : Clause} (found : grammar.readClause fragment position = some clause) :
    clause.position = position := by
  obtain ⟨operator, _, reading⟩ := List.exists_of_findSome?_eq_some found
  obtain ⟨parts, _, rfl⟩ := Option.map_eq_some_iff.mp reading
  rfl

end Grammar

namespace Scope

theorem authorise_iff (scope : Scope) (field : String) :
    scope.authorise field = .ok () ↔
      Identifier.isPath field = true ∧ scope.access.filterable.Opens field := by
  rw [← admits_iff_opens]
  unfold authorise Access.requireFilter Access.allowsFilter
  by_cases path : Identifier.isPath field = true
  · by_cases opened : scope.access.filterable.admits field = true <;> simp [path, opened]
  · simp [path]

theorem predicate_field {scope : Scope} {clause : Clause} {index : Int} {predicate : Predicate}
    (built : scope.predicate clause index = .ok predicate) :
    predicate.field = qualifyField clause.field scope.rootAlias := by
  unfold Scope.predicate at built
  cases bound : clause.operator.bind (clause.rawValue.getD "") with
  | error failure => rw [bound] at built; cases built
  | ok literal =>
      rw [bound] at built
      cases built
      rfl

theorem binding_of_predicate {scope : Scope} {clause : Clause} {index : Int}
    {predicate : Predicate} (built : scope.predicate clause index = .ok predicate) :
    predicate.operator = clause.operator ∧ ∃ literal?,
      clause.operator.bind (clause.rawValue.getD "") = .ok literal? ∧
      predicate.binding = literal?.map fun literal => ⟨placeholder index, literal⟩ := by
  obtain ⟨literal?, bound, same⟩ := parts_of_bind built
  cases same
  exact ⟨rfl, literal?, bound, rfl⟩

theorem resolve_lenient (scope : Scope) (lenient : scope.strictness = .lenient)
    (clause : Clause) :
    scope.resolve clause =
      if Identifier.isPath clause.field = true ∧ scope.access.filterable.Opens clause.field then
        match scope.predicate clause clause.position with
        | .error failure => .error (.integerTooLong failure)
        | .ok predicate => .ok (some predicate)
      else .ok none := by
  have authorised := authorise_iff scope clause.field
  unfold resolve
  rw [lenient, settle_lenient]
  cases checked : scope.authorise clause.field with
  | error rejection =>
      rw [checked] at authorised
      rw [if_neg (by simpa using authorised)]
      rfl
  | ok _ =>
      rw [checked] at authorised
      rw [if_pos (authorised.mp rfl)]
      rfl

theorem resolve_outcome {scope : Scope} {clause : Clause} {part : Option Predicate}
    (resolved : scope.resolve clause = .ok part) :
    (∃ predicate, part = some predicate ∧ (Identifier.isPath clause.field = true ∧
      scope.access.filterable.Opens clause.field) ∧
      scope.predicate clause clause.position = .ok predicate) ∨
    part = none ∧ ¬(Identifier.isPath clause.field = true ∧
      scope.access.filterable.Opens clause.field) := by
  have authorised := authorise_iff scope clause.field
  unfold resolve at resolved
  cases checked : scope.authorise clause.field with
  | error rejection =>
      rw [checked] at resolved authorised
      refine .inr ⟨?_, by simpa using authorised⟩
      cases policy : scope.strictness with
      | lenient =>
          rw [policy] at resolved
          cases resolved
          rfl
      | strict => rw [policy] at resolved; cases resolved
  | ok _ =>
      rw [checked] at resolved authorised
      rw [Strictness.settle, Option.getD_none] at resolved
      cases built : scope.predicate clause clause.position with
      | error failure => rw [built] at resolved; cases resolved
      | ok predicate =>
          rw [built] at resolved
          cases resolved
          exact .inl ⟨predicate, rfl, authorised.mp rfl, rfl⟩

/-- Every predicate that is taken over was built from one of the clauses, which was authorised. -/
theorem clause_of_resolved {scope : Scope} {clauses : List Clause} {predicates : List Predicate}
    (resolved : scope.resolveAll clauses = .ok predicates) {predicate : Predicate}
    (member : predicate ∈ predicates) :
    ∃ clause ∈ clauses, (Identifier.isPath clause.field = true ∧
      scope.access.filterable.Opens clause.field) ∧
      scope.predicate clause clause.position = .ok predicate := by
  induction clauses generalizing predicates with
  | nil =>
      cases resolved
      cases member
  | cons clause clauses induction =>
      obtain ⟨part, resolvedHead, resolved⟩ := parts_of_bind resolved
      obtain ⟨rest, resolvedRest, same⟩ := parts_of_bind resolved
      cases same
      rcases List.mem_append.mp member with here | later
      · obtain rfl := Option.mem_toList.mp here
        rcases resolve_outcome resolvedHead with ⟨_, same, authorised, built⟩ | ⟨none, _⟩
        · cases same
          exact ⟨clause, List.mem_cons_self, authorised, built⟩
        · cases none
      · obtain ⟨other, known, found⟩ := induction resolvedRest later
        exact ⟨other, List.mem_cons_of_mem clause known, found⟩

/-- Reading and resolving the fragments of a filter picks the admitted ones. The induction is on
the fragments; the position is carried along because it numbers the placeholders. -/
theorem picks_of_read (scope : Scope) {position : Int} {fragments : List String}
    {clauses : List Clause} {predicates : List Predicate}
    (read : Filter.readFragments .standard scope.strictness position fragments = .ok clauses)
    (resolved : scope.resolveAll clauses = .ok predicates) :
    Picks (fun index fragment => ∃ clause, scope.AdmitsClause index fragment clause) scope.Admits
      position fragments predicates := by
  induction fragments generalizing position clauses predicates with
  | nil =>
      cases read
      cases resolved
      exact .done position
  | cons fragment rest induction =>
      unfold Filter.readFragments at read
      obtain ⟨head, settled, read⟩ := parts_of_bind read
      obtain ⟨others, readRest, same⟩ := parts_of_bind read
      cases same
      have found := Filter.clause_of_settled settled
      cases head with
      | none =>
          refine .dropped ?_ (induction readRest resolved)
          rintro ⟨clause, foundClause, _⟩
          rw [found] at foundClause
          cases foundClause
      | some clause =>
          have numbered := Grammar.read_clause_position found
          rw [Option.toList_some, List.singleton_append, resolveAll] at resolved
          obtain ⟨part, resolvedHead, resolved⟩ := parts_of_bind resolved
          obtain ⟨restPredicates, resolvedRest, same⟩ := parts_of_bind resolved
          cases same
          rcases resolve_outcome resolvedHead with ⟨predicate, rfl, authorised, built⟩ | ⟨rfl, no⟩
          · rw [numbered] at built
            exact .taken ⟨clause, found, authorised⟩
              ⟨clause, ⟨found, authorised⟩, built, predicate_field built⟩
              (induction readRest resolvedRest)
          · refine .dropped ?_ (induction readRest resolvedRest)
            rintro ⟨other, foundOther, allowed⟩
            rw [found] at foundOther
            cases foundOther
            exact no allowed

theorem picks_of_resolved (scope : Scope) (lenient : scope.strictness = .lenient)
    {position : Int} {fragments : List String} {clauses : List Clause}
    {predicates : List Predicate}
    (read : Filter.readFragments .standard .lenient position fragments = .ok clauses)
    (resolved : scope.resolveAll clauses = .ok predicates) :
    Picks (fun index fragment => ∃ clause, scope.AdmitsClause index fragment clause) scope.Admits
      position fragments predicates := by
  rw [← lenient] at read
  exact scope.picks_of_read read resolved

end Scope

theorem of_keyword_iff (keyword : String) (direction : Direction) :
    Direction.ofKeyword? keyword = some direction ↔ direction.keyword = keyword := by
  constructor
  · intro found
    simpa using List.find?_some found
  · rintro rfl
    cases direction <;> rfl

namespace SortKey

theorem of_words_iff (words : List (List Char)) (sort : SortKey) :
    ofWords? words = some sort ↔
      ∃ direction, words = [sort.field.toList, direction] ∧
        Identifier.isPath sort.field = true ∧
        direction.map upperLetter = sort.direction.keyword.toList := by
  constructor
  · intro found
    match words, found with
    | [field, direction], found =>
        simp only [ofWords?] at found
        by_cases path : Identifier.isPath (String.ofList field) = true
        · rw [if_pos path] at found
          obtain ⟨read, known, rfl⟩ := Option.map_eq_some_iff.mp found
          rw [of_keyword_iff] at known
          exact ⟨direction, by simp, path, by simp [known]⟩
        · rw [if_neg path] at found
          cases found
  · rintro ⟨direction, rfl, path, upper⟩
    have known : Direction.ofKeyword? (String.ofList (direction.map upperLetter)) =
        some sort.direction := by
      rw [of_keyword_iff, upper, String.ofList_toList]
    simp [ofWords?, path, known]

theorem admits_sort_iff (access : Access) (entry : List Char) (sort : SortKey) :
    access.AdmitsSort entry sort ↔ (readEntry access entry).toOption = some sort := by
  have required (field : String) :
      access.requireSort field = .ok () ↔ access.sortable.Opens field := by
    rw [← admits_iff_opens]
    by_cases allowed : access.sortable.admits field = true <;>
      simp [Access.requireSort, Access.allowsSort, allowed]
  unfold Access.AdmitsSort readEntry
  constructor
  · rintro ⟨direction, written, path, upper, opened⟩
    rw [(of_words_iff _ sort).mpr ⟨direction, written, path, upper⟩]
    simp only [(required sort.field).mpr opened]
    rfl
  · intro taken
    cases found : ofWords? (Text.words entry) with
    | none => rw [found] at taken; cases taken
    | some read =>
        rw [found] at taken
        cases checked : access.requireSort read.field with
        | error rejection => simp only [checked] at taken; cases taken
        | ok _ =>
            simp only [checked] at taken
            cases taken
            obtain ⟨direction, written, path, upper⟩ := (of_words_iff _ _).mp found
            exact ⟨direction, written, path, upper, (required _).mp checked⟩

end SortKey

namespace Expansion

theorem accepts_iff_admits (access : Access) (relation : String) :
    accepts access relation = true ↔ access.AdmitsRelation relation := by
  unfold accepts Access.AdmitsRelation Identifier.isSimple Access.allowsExpand
  simp [admits_iff_opens, and_assoc]

theorem read_lenient (access : Access) (value : Value) :
    read access .lenient value =
      .ok ((names value).filter fun relation => access.AdmitsRelation relation).eraseDups := by
  rw [read_eq_read_entries, read_entries_lenient, List.nil_append]
  congr 2
  apply List.filter_congr
  intro relation _
  have same := accepts_iff_admits access relation
  by_cases admitted : access.AdmitsRelation relation
  · rw [same.mpr admitted, decide_eq_true admitted]
    rfl
  · rw [Bool.eq_false_iff.mpr (mt same.mp admitted), decide_eq_false admitted]
    rfl

end Expansion

namespace Session

variable {β : Type} [Backend β]

/-- A fresh lenient session that returns has passed on exactly the admitted parts of its options:
predicates by fragment, sorts by entry, relations by first appearance, then the bounds. -/
theorem backend_receives_admitted_parts (session : Session β) (page : Page)
    (fresh : session.request.page = none)
    (lenient : session.request.settings.strictness = .lenient)
    (returned : session.apply.2 = .ok page) :
    let request := session.request
    let access := request.access
    let rootAlias := request.settings.rootAlias
    ∃ predicates sorts expansions,
      session.apply.1.backend =
        Backend.receiveAll session.backend
          (predicates.map .addPredicate ++
            (sorts.map fun sort =>
              .addOrdering (qualifyField sort.field rootAlias) sort.direction) ++
            expansions.map .addExpansion ++
            (if 0 < page.limit then [.setLimit page.limit] else []) ++
            (if 0 < page.skip then [.setOffset page.skip] else [])) ∧
      Picks (fun index fragment => ∃ clause, request.scope.AdmitsClause index fragment clause)
        request.scope.Admits 0
        ((request.option request.settings.filterKey).parts Filter.fragments) predicates ∧
      Picks (fun _ entry => ∃ sort, access.AdmitsSort entry sort) (fun _ => access.AdmitsSort) 0
        ((request.option request.settings.orderbyKey).parts fun text =>
          Text.splitAtChar ',' text.toList) sorts ∧
      expansions =
        ((Expansion.names (request.option request.settings.expandKey)).filter fun relation =>
          access.AdmitsRelation relation).eraseDups ∧
      page = Page.ofSettings request.options request.settings ∧
      (access.filterable ≠ [] → ∀ predicate ∈ predicates,
        ∃ field ∈ access.filterable, predicate.field = qualifyField field rootAlias) ∧
      (access.sortable ≠ [] → ∀ sort ∈ sorts, sort.field ∈ access.sortable) ∧
      (access.expandable ≠ [] → ∀ relation ∈ expansions, relation ∈ access.expandable) := by
  intro request access rootAlias
  obtain ⟨predicates, sorts, expansions, readFilter, readSort, readExpand, samePage⟩ :=
    request.apply_returns fresh returned
  have applied := request.apply_of_reads fresh readFilter readSort readExpand
  rw [← samePage] at applied
  have picksPredicates : Picks
      (fun index fragment => ∃ clause, request.scope.AdmitsClause index fragment clause)
      request.scope.Admits 0
      ((request.option request.settings.filterKey).parts Filter.fragments) predicates := by
    unfold Request.readPredicates at readFilter
    rw [lenient, Filter.read_eq_read_fragments] at readFilter
    split at readFilter
    · cases readFilter
    · rename_i clauses read
      split at readFilter
      · cases readFilter
      · rename_i resolvedPredicates resolved
        cases readFilter
        exact Scope.picks_of_resolved request.scope lenient read resolved
  have picksSorts : Picks
      (fun _ entry => ∃ sort, access.AdmitsSort entry sort) (fun _ => access.AdmitsSort) 0
      ((request.option request.settings.orderbyKey).parts fun text =>
        Text.splitAtChar ',' text.toList) sorts := by
    unfold Request.readSorts at readSort
    rw [lenient, SortKey.read_eq_read_entries, SortKey.read_entries_lenient] at readSort
    cases readSort
    exact Picks.of_filter_map (fun _ entry sort => SortKey.admits_sort_iff access entry sort) 0 _
  have readRelations : expansions =
      ((Expansion.names (request.option request.settings.expandKey)).filter fun relation =>
        access.AdmitsRelation relation).eraseDups := by
    unfold Request.readExpansions at readExpand
    rw [lenient, Expansion.read_lenient] at readExpand
    cases readExpand
    rfl
  refine ⟨predicates, sorts, expansions, ?_, picksPredicates, picksSorts, readRelations, samePage,
    ?_, ?_, ?_⟩
  · change Backend.receiveAll session.backend request.apply.calls = _
    rw [applied]
    simp only [Request.restCalls, Request.pageCalls, List.append_assoc]
    rfl
  · intro limited predicate member
    obtain ⟨_, _, clause, admitted, _, sameField⟩ := picksPredicates.given_of_mem member
    exact ⟨clause.field, admitted.2.2.resolve_left limited, sameField⟩
  · intro limited sort member
    obtain ⟨_, _, _, _, _, _, opened⟩ := picksSorts.given_of_mem member
    exact opened.resolve_left limited
  · intro limited relation member
    rw [readRelations, List.mem_eraseDups, List.mem_filter, decide_eq_true_iff] at member
    exact member.2.2.2.resolve_left limited

/-- A request that asks for a field and a relation outside its lists, and twice for one inside. -/
def guarded : Session Recorder where
  request :=
    { options := [
        ("$filter", .text "age gt 18 and secret eq 'x' and name eq null"),
        ("$orderby", .text "name ASC, secret DESC"),
        ("$expand", .text "posts, profile, posts"),
        ("$top", .text "10"),
        ("$skip", .integer 5)]
      access := { filterable := ["age", "name"], sortable := ["name"], expandable := ["posts"] } }
  backend := {}

theorem guarded_backend_receives_admitted_parts :
    guarded.request.page = none ∧ guarded.request.settings.strictness = .lenient ∧
      guarded.apply.2 = .ok ⟨5, 10⟩ ∧
      ∃ (predicates : List Predicate) (sorts : List SortKey),
        guarded.apply.1.backend =
          Backend.receiveAll guarded.backend
            (predicates.map .addPredicate ++
              (sorts.map fun sort =>
                .addOrdering (qualifyField sort.field "entity") sort.direction) ++
              [.addExpansion "posts"] ++ [.setLimit 10] ++ [.setOffset 5]) ∧
        ∀ sort ∈ sorts, sort.field = "name" := by
  have returned : guarded.apply.2 = .ok ⟨5, 10⟩ := ok_of_to_option (by decide +kernel)
  obtain ⟨predicates, sorts, expansions, received, _, _, relations, _, _, sortable, _⟩ :=
    backend_receives_admitted_parts guarded ⟨5, 10⟩ rfl rfl returned
  have onlyPosts : expansions = ["posts"] := by
    rw [relations]
    decide +kernel
  refine ⟨rfl, rfl, returned, predicates, sorts, ?_, ?_⟩
  · rw [onlyPosts] at received
    exact received
  · intro sort member
    exact List.mem_singleton.mp (sortable (by decide) sort member)

end Session

end QueryOptions
