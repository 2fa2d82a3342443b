import Mathlib.Algebra.BigOperators.Group.Finset.Basic
import ApiDelta.Proofs.WalkExactness

/-!
How often an entry is told of. The walk answers an entry for its own sake once at most, on the first
path that reaches it. Fields and members are different: the plan of their owner publishes them without
asking whether they have been visited, once for each time that it lists them. So a function that a
module and a trait list, or a field that two structs share, is told of twice, under two identities.
-/
namespace ApiDelta.Tree

/-! ## Listings -/

/-- The declarations that others can have as fields, variants or members. -/
def Declaration.CanBePart : Declaration → Prop
  | .variant _ | .structField _ | .function _ | .method _ | .assocType _ | .assocConst _ => True
  | _ => False

/-- The declarations that are nothing by themselves. -/
def Declaration.OnlyPart : Declaration → Prop
  | .variant _ | .structField _ | .assocType _ | .assocConst _ => True
  | _ => False

/-- Whether an entry can stand among the parts of another. -/
def IsPart (tree : Tree) (id : Int) : Prop :=
  ∃ declaration, tree.declaration? id = some declaration ∧ declaration.CanBePart

def variantFields (tree : Tree) (id : Int) : List Int :=
  match tree.declaration? id with
  | some (.variant decl) => decl.fields
  | _ => []

/-- The fields and members that are told of together with an entry, each as often as it is listed. -/
def listings (tree : Tree) (id : Int) : List Int :=
  match tree.declaration? id with
  | some (.struct decl) => decl.fields
  | some (.union decl) => decl.fields
  | some (.enum decl) => decl.variants.flatMap tree.variantFields
  | some (.trait decl) => decl.items
  | some (.impl decl) => if decl.Counts then decl.items else []
  | _ => []

instance : DecidablePred Declaration.IsPublic
  | .function _ | .method _ | .struct _ | .union _ | .enum _ | .typedef _ | .trait _ | .constant _
  | .static _ | .structField _ | .assocType _ | .assocConst _ => .isTrue trivial
  | .impl decl => inferInstanceAs (Decidable (decl.trait.isSome ∧ decl.Counts))
  | .module _ | .variant _ | .reexport _ | .inert _ => .isFalse not_false

/-- Whether an entry belongs to the public interface. -/
def isPublic (tree : Tree) (id : Int) : Bool :=
  (tree.declaration? id).any fun declaration => declaration.IsPublic

/-! ## Parts -/

/-- Actions for the parts of an entry: they visit parts alone, and tell of the given ones in order. -/
structure Lists (tree : Tree) (actions : List Action) (ids : List Int) : Prop where
  visits : ∀ id, .visit id ∈ actions → tree.IsPart id
  sources : (publications actions).map Publication.source = ids
  parts : ∀ id ∈ ids, tree.IsPart id

section Parts

variable {tree : Tree} {id referrer : Int} {ids : List Int} {type : Identity} {path : List String}

theorem Lists.nil : tree.Lists [] [] :=
  ⟨fun _ none => absurd none List.not_mem_nil, rfl, fun _ none => absurd none List.not_mem_nil⟩

theorem Lists.flatMap {make : Int → List Action} {listed : Int → List Int}
    (each : ∀ id ∈ ids, tree.Lists (make id) (listed id)) :
    tree.Lists (ids.flatMap make) (ids.flatMap listed) where
  visits := by
    intro id member
    obtain ⟨part, listed, visits⟩ := List.mem_flatMap.mp member
    exact (each part listed).visits id visits
  sources := by
    rw [publications_flatMap, List.map_flatMap]
    exact List.flatMap_congr fun id member => (each id member).sources
  parts := by
    intro id member
    obtain ⟨part, listed, inside⟩ := List.mem_flatMap.mp member
    exact (each part listed).parts id inside

/-- A part that is visited and published. -/
theorem Lists.single {publication : Publication} (source : publication.source = id)
    (isPart : tree.IsPart id) : tree.Lists [.visit id, .publish publication] [id] where
  visits := by
    intro other member
    have same : other = id := by simpa using member
    exact same ▸ isPart
  sources := congrArg (fun source => [source]) source
  parts := by simpa using isPart

theorem lists_fieldActions (accepted : Accepted (tree.fieldActions type path referrer id)) :
    tree.Lists (tree.fieldActions type path referrer id) [id] := by
  obtain ⟨deprecated, decl, found, same⟩ := fieldActions_of_accepted accepted
  rw [same]
  exact .single rfl ⟨_, declared_of_found found, trivial⟩

theorem lists_fields (accepted : Accepted (ids.flatMap (tree.fieldActions type path referrer))) :
    tree.Lists (ids.flatMap (tree.fieldActions type path referrer)) ids := by
  have lists := Lists.flatMap fun id member => lists_fieldActions (accepted.of_mem_flatMap member)
  rwa [List.flatMap_singleton'] at lists

theorem lists_variantActions (accepted : Accepted (tree.variantActions type referrer id)) :
    tree.Lists (tree.variantActions type referrer id) (tree.variantFields id) := by
  obtain ⟨deprecated, decl, found, same⟩ := variantActions_of_accepted accepted
  have declared := declared_of_found found
  rw [same] at accepted ⊢
  have fields := lists_fields accepted.of_cons
  have listed : tree.variantFields id = decl.fields := by rw [variantFields, declared]
  rw [listed]
  refine ⟨fun other member => ?_, fields.sources, fields.parts⟩
  rcases List.mem_cons.mp member with here | inside
  · cases here
    exact ⟨_, declared, trivial⟩
  · exact fields.visits other inside

theorem lists_memberActions {parent : String} {owner : Option Identity}
    (accepted : Accepted (tree.memberActions path parent owner referrer id)) :
    tree.Lists (tree.memberActions path parent owner referrer id) [id] := by
  obtain ⟨entry, kind, item, found, possible, same⟩ := memberActions_of_accepted accepted
  obtain ⟨deprecated, declaration⟩ := entry
  rw [same]
  refine .single rfl ⟨declaration, declared_of_found found, ?_⟩
  cases declaration <;> cases possible <;> trivial

theorem lists_members {parent : String} {owner : Option Identity}
    (accepted : Accepted (ids.flatMap (tree.memberActions path parent owner referrer))) :
    tree.Lists (ids.flatMap (tree.memberActions path parent owner referrer)) ids := by
  have lists := Lists.flatMap fun id member => lists_memberActions (accepted.of_mem_flatMap member)
  rwa [List.flatMap_singleton'] at lists

end Parts

/-! ## Plans -/

/-- Actions that tell of what an entry lists and then, if it is public, of the entry itself, and visit
nothing else but parts. -/
structure Tells (tree : Tree) (origin : Int) (actions : List Action) : Prop where
  begun : .visit origin ∈ actions
  visits : ∀ id, .visit id ∈ actions → id = origin ∨ tree.IsPart id
  sources : (publications actions).map Publication.source =
    tree.listings origin ++ [origin].filter tree.isPublic
  parts : ∀ id ∈ tree.listings origin, tree.IsPart id

section Plans

variable {tree : Tree} {id : Int} {type : Identity} {path : List String} {deprecated : Bool}

theorem isPublic_of_declared {declaration : Declaration}
    (declared : tree.declaration? id = some declaration) :
    tree.isPublic id = decide declaration.IsPublic := by
  rw [isPublic, declared, Option.any_some]

theorem filter_isPublic {declaration : Declaration}
    (declared : tree.declaration? id = some declaration) :
    [id].filter tree.isPublic = if declaration.IsPublic then [id] else [] := by
  rw [List.filter_singleton, isPublic_of_declared declared]
  by_cases isPublic : declaration.IsPublic <;> simp [isPublic]

theorem Tells.assemble {inner closing : List Action} {listed : List Int}
    (lists : tree.Lists inner listed) (same : tree.listings id = listed)
    (still : ∀ other, .visit other ∉ closing)
    (own : (publications closing).map Publication.source = [id].filter tree.isPublic) :
    tree.Tells id (.visit id :: inner ++ closing) where
  begun := List.mem_cons_self
  visits := by
    intro other member
    rcases List.mem_append.mp member with inside | outside
    · rcases List.mem_cons.mp inside with here | part
      · cases here
        exact .inl rfl
      · exact .inr (lists.visits other part)
    · exact absurd outside (still other)
  sources := by
    rw [List.cons_append, publications_visit, publications_append, List.map_append, lists.sources,
      own, same]
  parts := fun other member => lists.parts other (same ▸ member)

/-- An entry that is published after its parts. -/
theorem Tells.owner {inner : List Action} {listed : List Int} {publication : Publication}
    {declaration : Declaration} (declared : tree.declaration? id = some declaration)
    (isPublic : declaration.IsPublic) (lists : tree.Lists inner listed)
    (same : tree.listings id = listed) (source : publication.source = id) :
    tree.Tells id (.visit id :: inner ++ [.publish publication]) := by
  refine .assemble lists same (by simp) ?_
  rw [filter_isPublic declared, if_pos isPublic]
  exact congrArg (fun source => [source]) source

/-- An entry that is published and has no parts. -/
theorem Tells.leaf {publication : Publication} {declaration : Declaration}
    (declared : tree.declaration? id = some declaration) (isPublic : declaration.IsPublic)
    (bare : tree.listings id = []) (source : publication.source = id) :
    tree.Tells id [.visit id, .publish publication] :=
  .owner declared isPublic .nil bare source

/-- An entry that is not published itself, with parts that are. -/
theorem Tells.silent {inner : List Action} {listed : List Int} {declaration : Declaration}
    (declared : tree.declaration? id = some declaration) (hidden : ¬declaration.IsPublic)
    (lists : tree.Lists inner listed) (same : tree.listings id = listed) :
    tree.Tells id (.visit id :: inner) := by
  have tells : tree.Tells id (.visit id :: inner ++ []) := by
    refine .assemble lists same (fun _ => List.not_mem_nil) ?_
    rw [filter_isPublic declared, if_neg hidden]
    rfl
  rwa [List.append_nil] at tells

/-- An entry of which nothing is told. -/
theorem Tells.skip {skipped : Skipped} {declaration : Declaration}
    (declared : tree.declaration? id = some declaration) (hidden : ¬declaration.IsPublic)
    (bare : tree.listings id = []) : tree.Tells id [.visit id, .skip skipped] := by
  refine .assemble .nil bare (by simp) ?_
  rw [filter_isPublic declared, if_neg hidden]
  rfl

theorem tells_implPlan {decl : ImplDecl} (found : tree.entry? id = some ⟨deprecated, .impl decl⟩)
    (accepted : Accepted (tree.implPlan id deprecated type decl).actions) :
    tree.Tells id (tree.implPlan id deprecated type decl).actions := by
  have declared := declared_of_found found
  by_cases counts : decl.Counts
  · have listed : tree.listings id = decl.items := by
      rw [listings, declared]
      exact if_pos counts
    cases named : decl.trait with
    | none =>
      rw [implPlan_own counts named] at accepted ⊢
      have hidden : ¬(Declaration.impl decl).IsPublic := by simp [Declaration.IsPublic, named]
      exact .silent declared hidden (lists_members accepted.of_cons) listed
    | some trait =>
      rw [implPlan_trait counts named] at accepted ⊢
      have isPublic : (Declaration.impl decl).IsPublic := ⟨by rw [named]; rfl, counts⟩
      exact .owner declared isPublic (lists_members accepted.of_append_left.of_cons) listed rfl
  · rw [implPlan_passed counts]
    have listed : tree.listings id = [] := by
      rw [listings, declared]
      exact if_neg counts
    exact .skip declared (fun isPublic => counts isPublic.2) listed

theorem tells_itemPlan {entry : Entry} {givenName : Option String}
    (found : tree.entry? id = some entry)
    (accepted : Accepted (tree.itemPlan id entry path givenName).actions) :
    tree.Tells id (tree.itemPlan id entry path givenName).actions := by
  obtain ⟨deprecated, declaration⟩ := entry
  have declared := declared_of_found found
  cases declaration with
  | struct decl | union decl =>
    exact .owner declared trivial (lists_fields accepted.of_append_left.of_cons)
      (by rw [listings, declared]) rfl
  | enum decl =>
    exact .owner declared trivial (.flatMap fun _ member =>
      lists_variantActions (accepted.of_append_left.of_cons.of_mem_flatMap member))
      (by rw [listings, declared]) rfl
  | trait decl =>
    exact .owner declared trivial (lists_members accepted.of_append_left.of_cons)
      (by rw [listings, declared]) rfl
  | function | method | typedef | constant | static =>
    exact .leaf declared trivial (by rw [listings, declared]) rfl
  | module decl => exact .silent declared not_false .nil (by rw [listings, declared])
  | inert decl => exact .skip declared not_false (by rw [listings, declared])
  | reexport decl =>
    have bare : tree.listings id = [] := by rw [listings, declared]
    simp only [itemPlan, reexportPlan]
    cases decl.target with
    | none => exact .skip declared not_false bare
    | some target => exact .silent declared not_false .nil bare
  | variant | structField | impl | assocType | assocConst =>
    exact absurd (List.mem_cons_of_mem _ List.mem_cons_self) (accepted _)

/-- A task that is heeded and not refused tells of the entry that it asks for. -/
theorem tells_plan {task : Task} (heeded : tree.Heeds task)
    (accepted : Accepted (tree.plan task).actions) :
    tree.Tells task.id (tree.plan task).actions := by
  cases answer_of_accepted accepted with
  | idle passed => exact absurd heeded passed
  | item _ _ found same =>
    rw [same] at accepted ⊢
    exact tells_itemPlan found accepted
  | splice _ declared same =>
    rw [same]
    exact .silent declared not_false .nil (by rw [listings, declared])
  | block _ _ found same =>
    rw [same] at accepted ⊢
    exact tells_implPlan found accepted

end Plans

/-! ## Runs -/

/-- The entries that tasks were answered for, in order. A task that comes to nothing visits nothing. -/
def called (tree : Tree) (answered : List Task) : List Int :=
  (answered.filter fun task => .visit task.id ∈ (tree.plan task).actions).map Task.id

section Runs

variable {tree : Tree} {state final : WalkState} {pending answered : List Task}

theorem called_cons_of_visit {task : Task} (visits : .visit task.id ∈ (tree.plan task).actions) :
    tree.called (task :: answered) = task.id :: tree.called answered := by
  simp [called, visits]

theorem called_cons_of_still {task : Task} (still : .visit task.id ∉ (tree.plan task).actions) :
    tree.called (task :: answered) = tree.called answered := by
  simp [called, still]

/-- Tasks tell of what the entries list that they are answered for, and of these entries. -/
theorem sources_emissions (accepted : ∀ task ∈ answered, Accepted (tree.plan task).actions) :
    (tree.emissions answered).map Publication.source =
      (tree.called answered).flatMap fun id => tree.listings id ++ [id].filter tree.isPublic := by
  induction answered with
  | nil => rfl
  | cons task rest ih =>
    have ih := ih fun other member => accepted other (List.mem_cons_of_mem _ member)
    have here := accepted task List.mem_cons_self
    rw [emissions, List.flatMap_cons, List.map_append, ← emissions, ih]
    by_cases heeded : tree.Heeds task
    · have tells := tells_plan heeded here
      rw [called_cons_of_visit tells.begun, List.flatMap_cons, tells.sources]
    · have mute : publications (tree.plan task).actions = [] :=
        List.eq_nil_iff_forall_not_mem.mpr fun _ told => heeded (heeds_of_publish here told)
      rw [called_cons_of_still (mt (heeds_of_visit here) heeded), mute]
      rfl

/-- An entry is answered for once at most, and not if it was visited before. -/
theorem Run.called_once (run : Run tree state pending answered final) :
    (tree.called answered).Nodup ∧
      ∀ id ∈ tree.called answered, id ∉ state.visited ∧ id ∈ final.visited := by
  induction run with
  | done => exact ⟨List.nodup_nil, nofun⟩
  | drop _ _ ih => exact ih
  | @answer state middle final task pending answered fresh performed rest ih =>
    obtain ⟨distinct, spent⟩ := ih
    have visited : ∀ id, id ∈ middle.visited ↔
        id ∈ state.visited ∨ .visit id ∈ (tree.plan task).actions :=
      fun _ => WalkState.mem_visited_performAll performed
    have later : ∀ id ∈ tree.called answered, id ∉ state.visited ∧ id ∈ final.visited :=
      fun id member => ⟨fun seen => (spent id member).1 ((visited id).mpr (.inl seen)),
        (spent id member).2⟩
    by_cases visits : .visit task.id ∈ (tree.plan task).actions
    · rw [called_cons_of_visit visits]
      have seen : task.id ∈ middle.visited := (visited _).mpr (.inr visits)
      refine ⟨List.nodup_cons.mpr ⟨fun again => (spent _ again).1 seen, distinct⟩, ?_⟩
      intro id member
      rcases List.mem_cons.mp member with rfl | member
      · exact ⟨fresh, rest.mem_visited.mpr (.inl seen)⟩
      · exact later id member
    · rw [called_cons_of_still visits]
      exact ⟨distinct, later⟩

theorem mem_called {id : Int} :
    id ∈ tree.called answered ↔
      ∃ task ∈ answered, .visit task.id ∈ (tree.plan task).actions ∧ task.id = id := by
  simp [called, and_assoc]

/-- What is visited along a run is answered for or is a part. -/
theorem Run.visited_as (run : Run tree state pending answered final) {id : Int}
    (seen : id ∈ final.visited) :
    id ∈ state.visited ∨ id ∈ tree.called answered ∨ tree.IsPart id := by
  rcases run.mem_visited.mp seen with before | ⟨task, member, visits⟩
  · exact .inl before
  · have accepted := run.accepted member
    have tells := tells_plan (heeds_of_visit accepted visits) accepted
    rcases tells.visits id visits with rfl | isPart
    · exact .inr (.inl (mem_called.mpr ⟨task, member, visits, rfl⟩))
    · exact .inr (.inr isPart)

theorem listings_of_isPart {id : Int} (isPart : tree.IsPart id) : tree.listings id = [] := by
  obtain ⟨declaration, declared, part⟩ := isPart
  rw [listings, declared]
  cases declaration <;> first | rfl | exact part.elim

/-- Only parts are listed by entries that are answered for. -/
theorem Run.isPart_of_listed (run : Run tree state pending answered final) {owner id : Int}
    (answers : owner ∈ tree.called answered) (listed : id ∈ tree.listings owner) :
    tree.IsPart id := by
  obtain ⟨task, member, visits, rfl⟩ := mem_called.mp answers
  have accepted := run.accepted member
  exact (tells_plan (heeds_of_visit accepted visits) accepted).parts id listed

/-- What is visited but not answered for lists nothing. -/
theorem Run.listings_eq_nil (run : Run tree .start pending answered final) {id : Int}
    (seen : id ∈ final.visited) (unanswered : id ∉ tree.called answered) : tree.listings id = [] := by
  rcases run.visited_as seen with start | answers | isPart
  · cases List.mem_singleton.mp start
    rw [listings, declaration?_rootId]
  · exact absurd answers unanswered
  · exact listings_of_isPart isPart

/-- No task is answered for an entry that can only be a part. -/
theorem Run.not_called (run : Run tree state pending answered final) {id : Int}
    {declaration : Declaration} (declared : tree.declaration? id = some declaration)
    (bound : declaration.OnlyPart) : id ∉ tree.called answered := by
  intro answers
  obtain ⟨task, member, visits, rfl⟩ := mem_called.mp answers
  have accepted := run.accepted member
  cases answer_of_accepted accepted with
  | idle _ still => exact still _ visits
  | @item _ entry _ found same =>
    obtain ⟨deprecated, other⟩ := entry
    rw [declared_of_found found] at declared
    cases declared
    rw [same] at accepted
    cases other with
    | variant | structField | assocType | assocConst =>
      exact accepted _ (List.mem_cons_of_mem _ List.mem_cons_self)
    | _ => exact bound
  | splice _ other =>
    rw [other] at declared
    cases declared
    exact bound
  | block _ _ found =>
    rw [declared_of_found found] at declared
    cases declared
    exact bound

end Runs

/-! ## Counts -/

/-- How often an entry is told of by tasks. -/
def tellings (tree : Tree) (answered : List Task) (id : Int) : Nat :=
  (tree.emissions answered).countP fun publication => publication.source = id

section Counts

variable {tree : Tree} {final : WalkState} {pending answered : List Task}

theorem tellings_eq_count (id : Int) :
    tree.tellings answered id = ((tree.emissions answered).map Publication.source).count id := by
  rw [tellings, List.count, List.countP_map]
  rfl

theorem Run.tellings_eq (run : Run tree .start pending answered final) (id : Int) :
    tree.tellings answered id =
      (if id ∈ tree.called answered ∧ tree.isPublic id then 1 else 0) +
        ∑ owner ∈ final.visited.toFinset, (tree.listings owner).count id := by
  obtain ⟨distinct, spent⟩ := run.called_once
  have own : ((tree.called answered).flatMap fun owner => [owner].filter tree.isPublic).count id =
      if id ∈ tree.called answered ∧ tree.isPublic id then 1 else 0 := by
    rw [← List.filter_flatMap, List.flatMap_singleton', (distinct.filter _).count]
    simp only [List.mem_filter]
  have parts : ((tree.called answered).flatMap tree.listings).count id =
      ∑ owner ∈ final.visited.toFinset, (tree.listings owner).count id := by
    rw [List.count_flatMap, ← List.sum_toFinset _ distinct]
    refine Finset.sum_subset (fun owner member => ?_) fun owner seen unanswered => ?_
    · exact List.mem_toFinset.mpr (spent owner (List.mem_toFinset.mp member)).2
    · have bare := run.listings_eq_nil (List.mem_toFinset.mp seen)
        (mt List.mem_toFinset.mpr unanswered)
      rw [Function.comp_apply, bare, List.count_nil]
  rw [tellings_eq_count, sources_emissions fun _ member => run.accepted member, ← own, ← parts]
  simp only [List.count_flatMap, Function.comp_def, List.count_append]
  rw [List.sum_map_add, Nat.add_comm]

/-- What cannot be a part is told of once if it is visited and public, and otherwise never. -/
theorem Run.tellings_of_whole (run : Run tree .start pending answered final) {id : Int}
    (whole : ¬tree.IsPart id) :
    tree.tellings answered id = if id ∈ final.visited ∧ tree.isPublic id then 1 else 0 := by
  have unlisted : ∀ owner ∈ final.visited.toFinset, (tree.listings owner).count id = 0 := by
    intro owner seen
    refine List.count_eq_zero.mpr fun listed => ?_
    by_cases answers : owner ∈ tree.called answered
    · exact whole (run.isPart_of_listed answers listed)
    · rw [run.listings_eq_nil (List.mem_toFinset.mp seen) answers] at listed
      cases listed
  have turn : id ∈ tree.called answered ∧ tree.isPublic id ↔
      id ∈ final.visited ∧ tree.isPublic id := by
    refine and_congr_left fun isPublic => ⟨fun answers => (run.called_once.2 id answers).2, ?_⟩
    intro seen
    rcases run.visited_as seen with start | answers | isPart
    · cases List.mem_singleton.mp start
      rw [isPublic_of_declared tree.declaration?_rootId] at isPublic
      exact absurd (of_decide_eq_true isPublic) not_false
    · exact answers
    · exact absurd isPart whole
  rw [run.tellings_eq, Finset.sum_eq_zero unlisted, Nat.add_zero]
  exact if_congr turn rfl rfl

end Counts

/-- **How often an entry is told of.** Each item of a snapshot is one telling. An entry is told of once
for each time that an entry which the root leads to lists it among its fields or members, and once more
if it is public and a task was answered for it. So what cannot be a part is told of once at most, and
what can be nothing else is told of as often as it is listed. -/
theorem tellings_of_translated {tree : Tree} {s : Snapshot}
    (translated : Snapshot.ofTree? tree = .ok s) :
    ∃ answered final, Run tree .start tree.rootTasks answered final ∧
      s.entries = ((tree.emissions answered).map Publication.entry).reverse ∧
      (∀ id, id ∈ final.visited ↔ tree.Reachable id) ∧
      (∀ id, tree.tellings answered id =
        (if id ∈ tree.called answered ∧ tree.isPublic id then 1 else 0) +
          ∑ owner ∈ final.visited.toFinset, (tree.listings owner).count id) ∧
      (∀ id, ¬tree.IsPart id → tree.tellings answered id =
        if id ∈ final.visited ∧ tree.isPublic id then 1 else 0) ∧
      ∀ id declaration, tree.declaration? id = some declaration → declaration.OnlyPart →
        tree.tellings answered id =
          ∑ owner ∈ final.visited.toFinset, (tree.listings owner).count id := by
  obtain ⟨answered, final, run, rfl⟩ := ofTree?_eq_ok_iff.mp translated
  have walked : tree.walkAll = .ok final := walk_eq_ok_iff.mpr ⟨answered, run⟩
  refine ⟨answered, final, run, run.entries_of_start, mem_visited_of_walkAll walked, run.tellings_eq,
    fun id => run.tellings_of_whole, fun id declaration declared bound => ?_⟩
  rw [run.tellings_eq, if_neg fun turn => run.not_called declared bound turn.1, Nat.zero_add]

/-- A function that the root lists and that a trait lists too. -/
def sharedFunctionTree : Tree where
  index := [
    (0, { declaration := .module { name := "demo", items := [1, 2] } }),
    (1, { declaration := .function { name := "f", callable := ⟨[], none, [], {}⟩ } }),
    (2, { declaration := .trait { name := "T", items := [1] } })]
  root := { name := "demo", items := [1, 2] }
  rooted := rfl

private theorem sharedFunctionTree_run : ∃ final first second third,
    Run sharedFunctionTree .start sharedFunctionTree.rootTasks
      [⟨1, [], .listed 0⟩, ⟨2, [], .listed 0⟩] final ∧
    sharedFunctionTree.emissions [⟨1, [], .listed 0⟩, ⟨2, [], .listed 0⟩] = [first, second, third] ∧
    first.source = 1 ∧ first.id = ⟨["f"], .function⟩ ∧
    second.source = 1 ∧ second.id = ⟨["T", "f"], .method⟩ :=
  ⟨_, _, _, _, .answer (by decide) rfl (.answer (by decide) rfl .done), rfl, rfl, rfl, rfl, rfl⟩

/-- The trait that lists the function is told of once, since no trait is a part. -/
theorem tellings_of_translated_shared_function :
    ∃ s answered, Snapshot.ofTree? sharedFunctionTree = .ok s ∧
      s.size = (sharedFunctionTree.emissions answered).length ∧
      sharedFunctionTree.tellings answered 2 = 1 := by
  obtain ⟨final, _, _, _, run, _⟩ := sharedFunctionTree_run
  have translated : Snapshot.ofTree? sharedFunctionTree = .ok final.published :=
    ofTree?_eq_ok_iff.mpr ⟨_, final, run, rfl⟩
  obtain ⟨answered, final, _, entries, reached, _, whole, _⟩ := tellings_of_translated translated
  have alone : ¬sharedFunctionTree.IsPart 2 := by
    rintro ⟨declaration, declared, part⟩
    cases declared
    exact part
  have seen : 2 ∈ final.visited :=
    (reached 2).mpr (.single (.item rfl (List.mem_of_elem_eq_true rfl) nofun))
  refine ⟨_, answered, translated, ?_, ?_⟩
  · rw [Snapshot.size, entries, List.length_reverse, List.length_map]
  · rw [whole 2 alone, if_pos ⟨seen, rfl⟩]

/-- The function is translated twice: at the path that reaches it first, and again as a method of the
trait. -/
theorem shared_function_is_told_twice :
    ∃ answered final, Run sharedFunctionTree .start sharedFunctionTree.rootTasks answered final ∧
      Snapshot.ofTree? sharedFunctionTree = .ok final.published ∧ final.published.size = 3 ∧
      ∃ first ∈ sharedFunctionTree.emissions answered,
        ∃ second ∈ sharedFunctionTree.emissions answered, first.source = second.source ∧
          first.entry ∈ final.published.entries ∧ second.entry ∈ final.published.entries ∧
          first.id = ⟨["f"], .function⟩ ∧ second.id = ⟨["T", "f"], .method⟩ := by
  obtain ⟨final, first, second, third, run, emissions, source, id, source', id'⟩ :=
    sharedFunctionTree_run
  have translated : Snapshot.ofTree? sharedFunctionTree = .ok final.published :=
    ofTree?_eq_ok_iff.mpr ⟨_, final, run, rfl⟩
  have entries := run.entries_of_start
  rw [emissions] at entries
  refine ⟨_, final, run, translated, by rw [Snapshot.size, entries]; rfl, first, ?_, second, ?_,
    source.trans source'.symm, ?_, ?_, id, id'⟩
  · simp [emissions]
  · simp [emissions]
  · simp [entries]
  · simp [entries]

end ApiDelta.Tree
