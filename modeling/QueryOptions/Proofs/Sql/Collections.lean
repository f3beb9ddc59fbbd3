import QueryOptions.Proofs.Sql.Counting

/-!
What a root carries of an expanded collection. The joined rows of a root are all combinations of its
related rows, and a condition reads the row of one relation only, so exchanging the row of another
relation keeps it. Hence a root that is answered carries exactly those related rows that meet the
conditions on their own relation: all of them when there is no such condition.
-/

namespace QueryOptions

namespace Sql

/-- The partner of an item at an index, which may be exchanged for any other partner of the item. -/
theorem partner_at {α β : Type} {fits : α → β → Prop} {items : List α} {partners : List β}
    (all : List.Forall₂ fits items partners) {index : Nat} {item : α}
    (found : items[index]? = some item) :
    ∃ partner, partners[index]? = some partner ∧ fits item partner ∧
      ∀ other, fits item other → List.Forall₂ fits items (partners.set index other) := by
  induction all generalizing index with
  | nil => cases found
  | @cons first firstPartner items partners fitsFirst rest induction =>
      cases index with
      | zero =>
          cases found
          exact ⟨firstPartner, rfl, fitsFirst, fun other fitsOther => .cons fitsOther rest⟩
      | succ index =>
          obtain ⟨partner, known, fitsItem, exchange⟩ := induction found
          exact ⟨partner, known, fitsItem, fun other fitsOther =>
            .cons fitsFirst (exchange other fitsOther)⟩

def BoundCondition.admits (condition : BoundCondition) (row : Row) : Bool :=
  Cell.holds condition.operator condition.column.kind (condition.column.rootCell row)
    condition.operand

namespace BoundCondition

variable {condition : BoundCondition} {joined other : Joined}

theorem holds_of_source {row : Row} (found : joined[condition.column.source]? = some (some row)) :
    condition.holds joined = condition.admits row := by
  unfold holds admits ColumnRef.cell ColumnRef.rootCell
  rw [found]
  rfl

theorem holds_congr
    (same : joined[condition.column.source]? = other[condition.column.source]?) :
    condition.holds joined = condition.holds other := by
  unfold holds ColumnRef.cell
  rw [same]

end BoundCondition

theorem Relation.mem_related {relation : Relation} {table : Table} {database : Database}
    {root target : Row} :
    some target ∈ relation.related table database root ↔
      target ∈ database.rows relation.target.name ∧ relation.relates table root target = true := by
  rw [← List.mem_filter]
  unfold related
  split
  · rename_i none
    simp [none]
  · simp

theorem Plan.mem_related_rows {index : Nat} {rows : List Joined} {target : Row} :
    target ∈ relatedRows index rows ↔ ∃ joined ∈ rows, joined[index]? = some (some target) := by
  unfold relatedRows
  rw [List.mem_eraseDups, List.mem_filterMap]
  simp only [Option.join_eq_some_iff]

namespace Plan

variable {plan : Plan} {database : Database}

theorem mem_foldl_combinations {related : Relation → List (Option Row)} {joins : List Relation}
    {built : List Joined} {joined : Joined} :
    joined ∈ joins.foldl (fun built relation =>
        built.flatMap fun row => (related relation).map fun target => row ++ [target]) built ↔
      ∃ start ∈ built, ∃ targets, joined = start ++ targets ∧
        List.Forall₂ (fun relation target => target ∈ related relation) joins targets := by
  induction joins generalizing built with
  | nil =>
      constructor
      · exact fun member => ⟨joined, member, [], (List.append_nil joined).symm, .nil⟩
      · rintro ⟨start, member, targets, rfl, all⟩
        cases all
        rwa [List.append_nil]
  | cons relation joins induction =>
      rw [List.foldl_cons, induction]
      constructor
      · rintro ⟨longer, extended, targets, rfl, all⟩
        obtain ⟨start, member, added⟩ := List.mem_flatMap.mp extended
        obtain ⟨target, known, rfl⟩ := List.mem_map.mp added
        exact ⟨start, member, target :: targets, by simp, .cons known all⟩
      · rintro ⟨start, member, _, rfl, all⟩
        cases all with
        | @cons _ target _ targets known all =>
            refine ⟨start ++ [target], ?_, targets, by simp, all⟩
            exact List.mem_flatMap.mpr ⟨start, member, List.mem_map_of_mem known⟩

theorem mem_combinations_iff {row : Row} {joined : Joined} :
    joined ∈ plan.combinations database row ↔
      ∃ targets, joined = some row :: targets ∧
        List.Forall₂ (fun relation target =>
          target ∈ relation.related plan.selection.entity.table database row)
          plan.selection.joins targets := by
  unfold combinations
  rw [mem_foldl_combinations]
  simp

/-- The rows of a joined relation that belong to a root and meet the conditions on the relation. -/
def admittedRows (plan : Plan) (database : Database) (root : Row) (index : Nat)
    (relation : Relation) : List Row :=
  (database.rows relation.target.name).filter fun target =>
    relation.relates plan.selection.entity.table root target &&
      plan.conditions.all fun condition =>
        condition.column.source ≠ index + 1 || condition.admits target

theorem mem_admitted_rows {root target : Row} {index : Nat} {relation : Relation} :
    target ∈ plan.admittedRows database root index relation ↔
      some target ∈ relation.related plan.selection.entity.table database root ∧
        ∀ condition ∈ plan.conditions, condition.column.source = index + 1 →
          condition.admits target = true := by
  unfold admittedRows
  rw [Relation.mem_related, List.mem_filter, Bool.and_eq_true, List.all_eq_true, and_assoc]
  simp only [Bool.or_eq_true, decide_eq_true_eq, ne_eq, ← imp_iff_not_or]

theorem admitted_rows_perm_iff {root : Row} {index : Nat} {relation : Relation} :
    (plan.admittedRows database root index relation).Perm
        ((database.rows relation.target.name).filter
          (relation.relates plan.selection.entity.table root)) ↔
      ∀ target ∈ database.rows relation.target.name,
        relation.relates plan.selection.entity.table root target = true →
        ∀ condition ∈ plan.conditions, condition.column.source = index + 1 →
          condition.admits target = true := by
  constructor
  · intro perm target member relates
    exact (mem_admitted_rows.mp (perm.mem_iff.mpr (List.mem_filter.mpr ⟨member, relates⟩))).2
  · intro admits
    refine List.Perm.of_eq (List.filter_congr fun target member => ?_)
    cases relates : relation.relates plan.selection.entity.table root target with
    | false => rfl
    | true =>
        rw [Bool.true_and, List.all_eq_true]
        intro condition given
        by_cases onRelation : condition.column.source = index + 1
        · rw [admits target member relates condition given onRelation, Bool.or_true]
        · rw [decide_eq_true onRelation, Bool.true_or]

section Block

variable {row : Row} {index : Nat} {relation : Relation}
  (joins : plan.selection.joins[index]? = some relation)

include joins

theorem admitted_of_block {joined : Joined} (member : joined ∈ plan.block database row)
    {target : Row} (found : joined[index + 1]? = some (some target)) :
    target ∈ plan.admittedRows database row index relation := by
  obtain ⟨combination, meets⟩ := List.mem_filter.mp member
  obtain ⟨targets, rfl, all⟩ := mem_combinations_iff.mp combination
  obtain ⟨partner, known, related, _⟩ := partner_at all joins
  rw [List.getElem?_cons_succ, known] at found
  cases found
  refine mem_admitted_rows.mpr ⟨related, ?_⟩
  intro condition given onRelation
  have placed : (some row :: targets)[condition.column.source]? = some (some target) := by
    rw [onRelation, List.getElem?_cons_succ, known]
  have held := List.all_eq_true.mp meets condition given
  rwa [BoundCondition.holds_of_source placed] at held

/-- The row of one relation may be exchanged in a joined row that meets the conditions. -/
theorem exchange_in_block {joined : Joined} (member : joined ∈ plan.block database row)
    {target : Row} (admitted : target ∈ plan.admittedRows database row index relation) :
    ∃ other ∈ plan.block database row, other[index + 1]? = some (some target) := by
  obtain ⟨combination, meets⟩ := List.mem_filter.mp member
  obtain ⟨targets, rfl, all⟩ := mem_combinations_iff.mp combination
  obtain ⟨partner, known, _, exchange⟩ := partner_at all joins
  obtain ⟨related, admits⟩ := mem_admitted_rows.mp admitted
  have within : index < targets.length := (List.getElem?_eq_some_iff.mp known).1
  have placed : (some row :: targets.set index (some target))[index + 1]? =
      some (some target) := by
    rw [List.getElem?_cons_succ, List.getElem?_set_self within]
  refine ⟨some row :: targets.set index (some target), List.mem_filter.mpr ⟨?_, ?_⟩, placed⟩
  · exact mem_combinations_iff.mpr ⟨_, rfl, exchange (some target) related⟩
  · rw [List.all_eq_true]
    intro condition given
    -- A condition on another source reads a row that the exchange leaves as it is.
    by_cases onRelation : condition.column.source = index + 1
    · rw [BoundCondition.holds_of_source (onRelation ▸ placed)]
      exact admits condition given onRelation
    · have same : (some row :: targets.set index (some target))[condition.column.source]? =
          (some row :: targets)[condition.column.source]? := by
        cases place : condition.column.source with
        | zero => rfl
        | succ position =>
            have apart : index ≠ position := by omega
            rw [List.getElem?_cons_succ, List.getElem?_cons_succ, List.getElem?_set_ne apart]
      rw [BoundCondition.holds_congr same]
      exact List.all_eq_true.mp meets condition given

theorem related_rows_perm (distinct : (database.rows relation.target.name).Nodup)
    (kept : plan.block database row ≠ []) {rows : List Joined}
    (perm : rows.Perm (plan.block database row)) :
    (relatedRows (index + 1) rows).Perm (plan.admittedRows database row index relation) := by
  refine (List.perm_ext_iff_of_nodup (erase_dups_nodup _) (distinct.filter _)).mpr
    fun target => ?_
  change target ∈ relatedRows (index + 1) rows ↔
    target ∈ plan.admittedRows database row index relation
  obtain ⟨joined, member⟩ := List.exists_mem_of_ne_nil _ kept
  rw [mem_related_rows]
  constructor
  · rintro ⟨other, otherMember, found⟩
    exact admitted_of_block joins (perm.mem_iff.mp otherMember) found
  · intro admitted
    obtain ⟨other, otherMember, found⟩ := exchange_in_block joins member admitted
    exact ⟨other, perm.mem_iff.mpr otherMember, found⟩

end Block

section Loaded

variable (collects : plan.selection.joins.any (·.isCollection) = true)

include collects

/-- With a collection the page is cut over keys, if at all, so it takes all joined rows of a root or
none of them. -/
theorem page_rows_by_key (database : Database) : ∃ keeps : List Cell → Bool,
    (plan.pageRows database).Perm
      ((plan.filtered database).filter fun joined => keeps (plan.key joined)) := by
  unfold pageRows
  cases overKeys : plan.selection.pagesKeys with
  | true =>
      exact ⟨fun key => (plan.pageKeys database).contains key, List.mergeSort_perm _ _⟩
  | false =>
      rw [Selection.pagesKeys, collects, Bool.and_true] at overKeys
      obtain ⟨noLimit, noOffset⟩ := Bool.or_eq_false_iff.mp overKeys
      rw [Option.isSome_eq_false_iff, Option.isNone_iff_eq_none] at noLimit noOffset
      refine ⟨fun _ => true, ?_⟩
      rw [if_neg Bool.false_ne_true, List.filter_true, bounded, noLimit, noOffset]
      exact List.mergeSort_perm _ _

theorem loaded_carries_block
    (distinct : ((plan.rows database).map plan.selection.entity.rowKey).Nodup)
    {root : Row × List Joined} (member : root ∈ plan.loaded database) :
    root.1 ∈ plan.rows database ∧ plan.block database root.1 ≠ [] ∧
      root.2.Perm (plan.block database root.1) := by
  obtain ⟨joined, first, rfl⟩ := List.mem_map.mp member
  have onPage : joined ∈ plan.pageRows database :=
    (first_by_key_sublist _ _ _).subset ((plan.roots_perm _).mem_iff.mp first)
  obtain ⟨keeps, paged⟩ := page_rows_by_key collects database
  obtain ⟨found, kept⟩ := List.mem_filter.mp (paged.mem_iff.mp onPage)
  rw [filtered_eq] at found
  obtain ⟨row, rowMember, inBlock⟩ := List.mem_flatMap.mp found
  dsimp only
  rw [block_rooted row joined inBlock]
  refine ⟨rowMember, List.ne_nil_of_mem inBlock, (paged.filter _).trans ?_⟩
  -- One row of the root is kept, and whether a row is kept depends on its root's key alone.
  have keepsOwn : ∀ other, (decide (plan.key other = plan.key joined) && keeps (plan.key other)) =
      decide (plan.key other = plan.key joined) := by
    intro other
    by_cases same : plan.key other = plan.key joined
    · rw [same, kept, Bool.and_true]
    · rw [decide_eq_false same, Bool.false_and]
  rw [List.filter_filter]
  simp only [keepsOwn]
  rw [filtered_eq, block_keyed row joined inBlock, own_block distinct rowMember]

end Loaded

end Plan

namespace Store

variable {database : Database} {entity : Entity} {rootAlias : String} {access : Access}
  {settings : Settings}

/-- Every root of the page is a whole row of the database, and of an expanded collection it carries
each related row that meets the conditions on the collection, once. So it carries the full
collection exactly when all of its related rows meet these conditions. -/
theorem collections_hold_admitted_rows (options : List (String × Value))
    (keyed : ((database.rows entity.table.name).map entity.rowKey).Nodup)
    (distinct : ∀ relation ∈ entity.relations, (database.rows relation.target.name).Nodup)
    {answer : Answer}
    (returned : (ask database entity rootAlias access settings options).execute.2 = .ok answer) :
    ∃ plan,
      (ask database entity rootAlias access settings options).apply.1.backend.selection.plan =
        .ok plan ∧
      answer.rows = (plan.loaded database).map plan.present ∧
      ∀ index relation, plan.selection.joins[index]? = some relation →
        relation.isCollection = true → ∀ root ∈ plan.loaded database,
          root.1 ∈ database.rows entity.table.name ∧
          (Plan.relatedRows (index + 1) root.2).Perm
            (plan.admittedRows database root.1 index relation) ∧
          ((Plan.relatedRows (index + 1) root.2).Perm
              ((database.rows relation.target.name).filter
                (relation.relates entity.table root.1)) ↔
            ∀ target ∈ database.rows relation.target.name,
              relation.relates entity.table root.1 target = true →
              ∀ condition ∈ plan.conditions, condition.column.source = index + 1 →
                condition.admits target = true) := by
  obtain ⟨predicates, sorts, expansions, plan, readFilter, readSort, readExpand, planned, rfl⟩ :=
    ask_returned returned
  obtain ⟨_, _, _, _, ofSelection⟩ := Selection.plan_eq_ok_iff.mp planned
  have ofEntity : plan.selection.entity = entity := congrArg Selection.entity ofSelection
  have joinsOfPlan : plan.selection.joins = entity.joinsWith [] expansions :=
    congrArg Selection.joins ofSelection
  refine ⟨plan, (ask_executed readFilter readSort readExpand planned).1, by rw [Plan.answer_eq],
    ?_⟩
  intro index relation joined isCollection root member
  have known : relation ∈ plan.selection.joins := List.mem_of_getElem? joined
  have own : relation ∈ entity.relations :=
    Entity.joins_with_of_entity expansions (by simp) relation (joinsOfPlan ▸ known)
  have collects : plan.selection.joins.any (·.isCollection) = true :=
    List.any_eq_true.mpr ⟨relation, known, isCollection⟩
  subst ofEntity
  obtain ⟨rootMember, kept, carries⟩ := Plan.loaded_carries_block collects keyed member
  have admitted := Plan.related_rows_perm joined (distinct relation own) kept carries
  refine ⟨rootMember, admitted, ?_⟩
  rw [← Plan.admitted_rows_perm_iff]
  exact ⟨admitted.symm.trans, admitted.trans⟩

/-- The two painters have all of their posts: the condition is on the profile, the posts only order
the page. -/
theorem painters_hold_all_posts :
    let request := ask Sample.database .user "entity" {} {}
      [("$filter", .text "profile.bio eq 'Painter'"), ("$expand", .text "profile,posts"),
        ("$orderby", .text "posts.title DESC"), ("$top", .text "2")]
    ∃ answer, ∃ plan : Plan, ∃ posts, request.execute.2 = .ok answer ∧ answer.total = 2 ∧
      answer.rows = (plan.loaded Sample.database).map plan.present ∧
      plan.selection.joins[1]? = some posts ∧ posts.name = "posts" ∧
      ∀ root ∈ plan.loaded Sample.database,
        (Plan.relatedRows 2 root.2).Perm (Sample.postRows.filter (posts.relates .users root.1)) := by
  intro request
  have counted : request.execute.2.toOption.map Answer.total = some 2 := by decide +kernel
  obtain ⟨answer, found, two⟩ := Option.map_eq_some_iff.mp counted
  have returned : request.execute.2 = .ok answer := ok_of_to_option found
  obtain ⟨plan, planned, rows, holds⟩ := collections_hold_admitted_rows _
    (Entity.row_keys_distinct sample_users_sound) (by decide +kernel) returned
  obtain ⟨_, conditions, _, _, ofSelection⟩ := Selection.plan_eq_ok_iff.mp planned
  have resolved : request.apply.1.backend.selection.predicates.mapM
      request.apply.1.backend.selection.condition =
        .ok [⟨⟨1, 2, .text⟩, .comparison .eq, .text "Painter"⟩] := ok_of_to_option (by decide +kernel)
  have ofProfile := Except.ok.inj (resolved.symm.trans conditions)
  have joined : plan.selection.joins = Entity.user.relations := by
    rw [ofSelection]
    decide +kernel
  have second : plan.selection.joins[1]? = some Entity.user.relations[1] := by
    rw [joined]
    rfl
  refine ⟨answer, plan, _, returned, two, rows, second, rfl, ?_⟩
  intro root member
  refine (holds 1 _ second rfl root member).2.2.mpr ?_
  intro target _ _ condition given onPosts
  rw [← ofProfile, List.mem_singleton] at given
  subst given
  cases onPosts

/-- The users with a post titled a have more posts, but a condition on the posts leaves them only
the post that meets it. -/
theorem filtered_posts_are_left_out :
    let request := ask Sample.database .user "entity" {} {}
      [("$filter", .text "posts.title eq 'a'"), ("$expand", .text "posts"),
        ("$orderby", .text "id ASC"), ("$top", .text "2")]
    ∃ answer, ∃ plan : Plan, ∃ posts, request.execute.2 = .ok answer ∧
      answer.rows = (plan.loaded Sample.database).map plan.present ∧
      plan.selection.joins[0]? = some posts ∧ posts.isCollection = true ∧
      (plan.loaded Sample.database).map (fun root =>
        (Plan.relatedRows 1 root.2).map fun post => post[2]?) =
          [[some (.text "a")], [some (.text "a")]] ∧
      (plan.loaded Sample.database).map (fun root =>
        (Sample.postRows.filter (posts.relates .users root.1)).map fun post => post[2]?) =
          [[some (.text "a"), some (.text "b"), some (.text "c")],
            [some (.text "a"), some (.text "z")]] := by
  intro request
  let plan : Plan := ⟨request.apply.1.backend.selection, [⟨⟨1, 2, .text⟩, .comparison .eq, .text "a"⟩],
    [(⟨0, 0, .integer⟩, .ascending)]⟩
  have applied : request.apply.2.toOption = some ⟨0, 2⟩ := by decide +kernel
  have conditions : request.apply.1.backend.selection.predicates.mapM
      request.apply.1.backend.selection.condition = .ok plan.conditions :=
    ok_of_to_option (by decide +kernel)
  have orderings : request.apply.1.backend.selection.orderings.mapM
      request.apply.1.backend.selection.ordering = .ok plan.orderings :=
    ok_of_to_option (by decide +kernel)
  have planned : request.apply.1.backend.selection.plan = .ok plan :=
    Selection.plan_eq_ok_iff.mpr
      ⟨by decide +kernel, conditions, orderings, by decide +kernel, rfl⟩
  have sameDatabase : request.apply.1.backend.database = Sample.database :=
    congrArg Store.database (receive_all_eq request.backend request.request.apply.calls)
  have executed : request.execute.2 = .ok (plan.answer Sample.database) :=
    execute_eq_ok_iff.mpr ⟨⟨_, ok_of_to_option applied⟩, plan, planned, by rw [sameDatabase]⟩
  have ofEntity : plan.selection.entity = .user := by decide +kernel
  have sound : Sample.database.Sound plan.selection.entity := by
    rw [ofEntity]
    exact sample_users_sound
  have sorts : plan.SortsRoots := ⟨by decide +kernel, by decide +kernel⟩
  have joins : ∀ relation ∈ plan.selection.joins, relation ∈ plan.selection.entity.relations := by
    decide +kernel
  -- The users stand in the order of their ids, so nothing has to be computed of the sort.
  have inOrder : plan.sortedRows Sample.database = plan.rows Sample.database :=
    List.mergeSort_of_pairwise (by decide +kernel)
  have loaded : plan.loaded Sample.database =
      (plan.bounded ((plan.rows Sample.database).filter fun row =>
        !(plan.block Sample.database row).isEmpty)).map fun row =>
          (row, plan.block Sample.database row) := by
    rw [Plan.loaded_eq sound sorts joins, Plan.keptRows, inOrder]
  refine ⟨_, plan, Entity.user.relations[1], executed, by rw [Plan.answer_eq],
    by decide +kernel, rfl, ?_⟩
  rw [loaded]
  decide +kernel

end Store

end Sql

end QueryOptions
