import Mathlib.Algebra.Order.BigOperators.Group.Finset
import ApiDelta.Proofs.LiveReferences
import ApiDelta.Proofs.ReexportChains

/-!
Every walk ends, whatever the entries of a tree refer to: themselves, each other, or a module that they
stand in. The capacity of a walk counts the pending tasks and those that unvisited entries may still ask
for. Each step uses up some of it, since a task that asks for more has just visited an entry of the tree
that was not visited before. For the same reason no list is gone through twice.
-/
namespace ApiDelta.Tree

/-- The way of a walk with its history: the tasks that were answered, the latest first, and how many were
dropped. -/
inductive Course (tree : Tree) : List Task → Nat → WalkState → List Task → Prop where
  | start : Course tree [] 0 .start tree.rootTasks
  | drop {answered pending : List Task} {dropped : Nat} {state : WalkState} {task : Task}
      (course : Course tree answered dropped state (task :: pending))
      (seen : task.id ∈ state.visited) : Course tree answered (dropped + 1) state pending
  | answer {answered pending : List Task} {dropped : Nat} {state middle : WalkState} {task : Task}
      (course : Course tree answered dropped state (task :: pending))
      (fresh : task.id ∉ state.visited)
      (performed : state.performAll (tree.plan task).actions = .ok middle) :
      Course tree (task :: answered) dropped middle ((tree.plan task).next ++ pending)

/-- How a walk can end: with no task left, or with a task that is refused. -/
inductive Ending (tree : Tree) : Except Stop WalkState → Prop where
  | done {answered : List Task} {dropped : Nat} {final : WalkState}
      (course : tree.Course answered dropped final []) : Ending tree (.ok final)
  | stopped {answered pending : List Task} {dropped : Nat} {state : WalkState} {task : Task}
      {stop : Stop} (course : tree.Course answered dropped state (task :: pending))
      (fresh : task.id ∉ state.visited)
      (performed : state.performAll (tree.plan task).actions = .error stop) :
      Ending tree (.error stop)

/-- The numbers of the entries of a tree. -/
def keys (tree : Tree) : Finset Int :=
  (tree.index.map Prod.fst).toFinset

/-- How many tasks a walk can still meet: the pending ones, and one for each reference by which an entry
that has not been visited asks for another. -/
def capacity (tree : Tree) (state : WalkState) (pending : List Task) : Nat :=
  pending.length + ∑ id ∈ tree.keys with id ∉ state.visited, (tree.sought id).length

/-- A task goes through the list of its entry: it asks for all items of a module, or meets all members of
a block of implementations. -/
inductive Opens (tree : Tree) (task : Task) : Prop where
  | items {decl : ModuleDecl} {path : List String}
      (declared : tree.declaration? task.id = some (.module decl))
      (visits : .visit task.id ∈ (tree.plan task).actions)
      (lists : (tree.plan task).next = listedTasks path task.id decl.items)
  | members {decl : ImplDecl} {path : List String} {parent : String} {owner : Option Identity}
      {closing : List Action} (declared : tree.declaration? task.id = some (.impl decl))
      (lists : (tree.plan task).actions =
        .visit task.id :: decl.items.flatMap (tree.memberActions path parent owner task.id) ++ closing)

/-- The entries with a list that is gone through once: modules, and blocks of implementations that
count. -/
def HasList (tree : Tree) (id : Int) : Prop :=
  match tree.declaration? id with
  | some (.module _) => True
  | some (.impl decl) => decl.Counts
  | _ => False

section Keys

variable {tree : Tree} {id : Int} {entry : Entry}

theorem mem_keys_of_found (found : tree.entry? id = some entry) : id ∈ tree.keys :=
  List.mem_toFinset.mpr (List.mem_map.mpr ⟨_, mem_index_of_entry? found, rfl⟩)

theorem mem_keys_of_declared {declaration : Declaration}
    (declared : tree.declaration? id = some declaration) : id ∈ tree.keys := by
  obtain ⟨entry, found, _⟩ := Option.map_eq_some_iff.mp declared
  exact mem_keys_of_found found

end Keys

/-! ## Lists -/

section Lists

variable {tree : Tree} {task : Task}

theorem Opens.visits (opens : tree.Opens task) : .visit task.id ∈ (tree.plan task).actions := by
  cases opens with
  | items _ visits => exact visits
  | members _ lists => exact lists ▸ List.mem_cons_self

/-- A block of implementations that counts is gone through. -/
theorem opens_of_block {type : Identity} {deprecated : Bool} {decl : ImplDecl}
    (declared : tree.declaration? task.id = some (.impl decl)) (counts : decl.Counts)
    (same : tree.plan task = tree.implPlan task.id deprecated type decl) : tree.Opens task := by
  cases named : decl.trait with
  | none =>
    rw [implPlan_own counts named] at same
    exact .members declared (by rw [same, List.append_nil])
  | some trait =>
    rw [implPlan_trait counts named] at same
    exact .members declared (congrArg Plan.actions same)

/-- An accepted task for an entry with a list goes through it, or passes the entry over. -/
theorem opens_or_idle (accepted : Accepted (tree.plan task).actions) (list : tree.HasList task.id) :
    tree.Opens task ∨
      (∀ id, .visit id ∉ (tree.plan task).actions) ∧ (tree.plan task).next = [] := by
  cases answer_of_accepted accepted with
  | idle _ still _ last => exact .inr ⟨still, last⟩
  | splice _ declared same =>
    exact .inl (.items declared (by simp [same]) (congrArg Plan.next same))
  | @block type deprecated decl _ found same =>
    have declared : tree.declaration? task.id = some (.impl decl) := declared_of_found found
    simp only [HasList, declared] at list
    exact .inl (opens_of_block declared list same)
  | @item givenName entry heeded found same =>
    have declared := declared_of_found found
    simp only [HasList, declared] at list
    obtain ⟨deprecated, declaration⟩ := entry
    cases declaration with
    | module decl =>
      exact .inl (.items declared (by simp [same, itemPlan]) (congrArg Plan.next same))
    | impl decl =>
      rw [same] at accepted
      exact absurd (List.mem_cons_of_mem _ List.mem_cons_self) (accepted _)
    | _ => exact list.elim

/-- The further tasks of a plan are no more than the references of its entry that tasks ask for. -/
theorem length_next_le (accepted : Accepted (tree.plan task).actions) :
    (tree.plan task).next.length ≤ (tree.sought task.id).length := by
  by_cases heeded : tree.Heeds task
  · have lengths := congrArg List.length (ids_next accepted heeded)
    rw [List.length_map, List.length_map] at lengths
    exact lengths.le
  · rw [next_of_passed accepted heeded]
    exact Nat.zero_le _

end Lists

/-! ## Steps -/

section Steps

variable {tree : Tree} {state middle : WalkState} {task : Task} {pending answered : List Task}
  {dropped : Nat}

theorem capacity_drop : tree.capacity state (task :: pending) = tree.capacity state pending + 1 := by
  simp only [capacity, List.length_cons]
  omega

/-- A task that asks for more has visited an entry of the tree that was still to be visited. -/
theorem capacity_answer (fresh : task.id ∉ state.visited)
    (performed : state.performAll (tree.plan task).actions = .ok middle) :
    tree.capacity middle ((tree.plan task).next ++ pending) + 1 ≤
      tree.capacity state (task :: pending) := by
  have visited : ∀ id, id ∈ middle.visited ↔
      id ∈ state.visited ∨ .visit id ∈ (tree.plan task).actions :=
    fun _ => WalkState.mem_visited_performAll performed
  have fewer : (tree.keys.filter fun id => id ∉ middle.visited) ⊆
      tree.keys.filter fun id => id ∉ state.visited :=
    Finset.monotone_filter_right _ fun id _ still seen => still ((visited id).mpr (.inl seen))
  have released : (tree.plan task).next.length +
      ∑ id ∈ tree.keys with id ∉ middle.visited, (tree.sought id).length ≤
        ∑ id ∈ tree.keys with id ∉ state.visited, (tree.sought id).length := by
    by_cases more : (tree.plan task).next = []
    · simpa [more] using Finset.sum_le_sum_of_subset fewer
    · obtain ⟨visits, present⟩ := plan_progress more
      obtain ⟨entry, found⟩ := Option.isSome_iff_exists.mp present
      have inside : task.id ∈ tree.keys.filter fun id => id ∉ state.visited :=
        Finset.mem_filter.mpr ⟨mem_keys_of_found found, fresh⟩
      have without : (tree.keys.filter fun id => id ∉ middle.visited) ⊆
          (tree.keys.filter fun id => id ∉ state.visited).erase task.id := by
        refine Finset.subset_erase.mpr ⟨fewer, fun still => ?_⟩
        exact (Finset.mem_filter.mp still).2 ((visited _).mpr (.inr visits))
      rw [← Finset.add_sum_erase _ _ inside]
      exact Nat.add_le_add (length_next_le (WalkState.accepted_of_performAll performed))
        (Finset.sum_le_sum_of_subset without)
  simp only [capacity, List.length_append, List.length_cons]
  omega

/-- The steps of a walk and what it can still meet stay within the capacity that it starts with. -/
theorem Course.bounded (course : tree.Course answered dropped state pending) :
    answered.length + dropped + tree.capacity state pending ≤ tree.capacity .start tree.rootTasks := by
  induction course with
  | start => simp
  | drop _ _ ih =>
    rw [capacity_drop] at ih
    omega
  | @answer answered pending dropped state middle task _ fresh performed ih =>
    have less : tree.capacity middle ((tree.plan task).next ++ pending) + 1 ≤
        tree.capacity state (task :: pending) := capacity_answer fresh performed
    rw [List.length_cons]
    omega

theorem Course.accepted (course : tree.Course answered dropped state pending)
    (member : task ∈ answered) : Accepted (tree.plan task).actions := by
  induction course with
  | start => cases member
  | drop _ _ ih => exact ih member
  | answer _ _ performed ih =>
    rcases List.mem_cons.mp member with rfl | before
    · exact WalkState.accepted_of_performAll performed
    · exact ih before

theorem Course.stage (course : tree.Course answered dropped state pending) :
    tree.Stage state pending := by
  induction course with
  | start => exact .start
  | drop _ seen ih => exact .drop ih seen
  | answer _ fresh performed ih => exact .answer ih fresh performed

theorem Stage.settled (stage : tree.Stage state pending) : tree.Settled state pending := by
  induction stage with
  | start => exact settled_start tree
  | drop _ seen ih => exact ih.drop seen
  | answer _ _ performed ih => exact ih.answer performed

/-- Wherever a walk has come to, it ends. -/
theorem Course.ending (course : tree.Course answered dropped state pending) :
    tree.Ending (tree.walk state pending) := by
  fun_induction walk tree state pending generalizing answered dropped with
  | case1 => exact .done course
  | case2 state task pending seen ih => exact ih (course.drop seen)
  | case3 state task pending fresh stop performed => exact .stopped course fresh performed
  | case4 state task pending fresh middle performed ih => exact ih (course.answer fresh performed)

/-- Only entries of the tree are visited. -/
theorem Stage.visited_subset (stage : tree.Stage state pending) :
    state.visited.toFinset ⊆ tree.keys := by
  intro id seen
  rcases stage.settled.placed id (List.mem_toFinset.mp seen) with rfl | ⟨_, _, _, _, declared, _⟩
  · exact mem_keys_of_declared tree.declaration?_rootId
  · exact mem_keys_of_declared declared

/-- Whatever a task has asked for or gone through, it has visited its entry first. -/
theorem visited_ssubset (fresh : task.id ∉ state.visited)
    (performed : state.performAll (tree.plan task).actions = .ok middle)
    (more : (tree.plan task).next ≠ [] ∨ tree.Opens task) :
    state.visited.toFinset ⊂ middle.visited.toFinset := by
  have visited : ∀ id, id ∈ middle.visited ↔
      id ∈ state.visited ∨ .visit id ∈ (tree.plan task).actions :=
    fun _ => WalkState.mem_visited_performAll performed
  have visits : .visit task.id ∈ (tree.plan task).actions :=
    more.elim (fun more => (plan_progress more).1) Opens.visits
  refine Finset.ssubset_iff_subset_ne.mpr ⟨fun id seen => ?_, fun same => fresh ?_⟩
  · exact List.mem_toFinset.mpr ((visited id).mpr (.inl (List.mem_toFinset.mp seen)))
  · refine List.mem_toFinset.mp ?_
    rw [same]
    exact List.mem_toFinset.mpr ((visited _).mpr (.inr visits))

/-- Once a task has gone through the list of an entry, or the walk has begun with that of the root, no
other task for the entry is answered. -/
theorem Course.opened_once (course : tree.Course answered dropped state pending) :
    (∀ task ∈ answered, task.id ≠ rootId ∧ (tree.Opens task → task.id ∈ state.visited)) ∧
      answered.Pairwise fun later earlier => tree.Opens earlier → later.id ≠ earlier.id := by
  induction course with
  | start => exact ⟨nofun, .nil⟩
  | drop _ _ ih => exact ih
  | @answer answered pending dropped state middle task course fresh performed ih =>
    obtain ⟨told, once⟩ := ih
    have visited : ∀ id, id ∈ middle.visited ↔
        id ∈ state.visited ∨ .visit id ∈ (tree.plan task).actions :=
      fun _ => WalkState.mem_visited_performAll performed
    refine ⟨fun other member => ?_, List.pairwise_cons.mpr ⟨fun earlier member opens same => ?_, once⟩⟩
    · rcases List.mem_cons.mp member with rfl | before
      · refine ⟨fun root => fresh ?_, fun opens => (visited _).mpr (.inr opens.visits)⟩
        rw [root]
        exact course.stage.settled.grounded.tracks.begun
      · exact ⟨(told other before).1, fun opens => (visited _).mpr (.inl ((told other before).2 opens))⟩
    · exact fresh (same ▸ (told earlier member).2 opens)

end Steps

/-! ## Whole trees -/

/-- The translation of a tree ends as its walk does. -/
theorem ofTree?_ends (tree : Tree) :
    (∃ answered dropped final, tree.Course answered dropped final [] ∧
      Snapshot.ofTree? tree = .ok final.published) ∨
    ∃ answered dropped state task pending stop, tree.Course answered dropped state (task :: pending) ∧
      task.id ∉ state.visited ∧ state.performAll (tree.plan task).actions = .error stop ∧
      Snapshot.ofTree? tree = .error stop.problem := by
  have ending : tree.Ending tree.walkAll := Course.start.ending
  unfold Snapshot.ofTree?
  generalize tree.walkAll = outcome at ending
  cases ending with
  | done course => exact .inl ⟨_, _, _, course, rfl⟩
  | stopped course fresh performed =>
    exact .inr ⟨_, _, _, _, _, _, course, fresh, performed, rfl⟩

/-- **Walks end on every graph.** The steps of a walk over a tree, and the tasks still pending, are never
more than the capacity that the tree starts with; so the walk comes to its last task or to one that is
refused, and the tree is translated or refused accordingly. The items of a module and the members of a
block of implementations are gone through once at most, those of the root at the very start. That is
because each task that asks for more, or goes through a list, adds to the visited entries of the tree
before it does so. -/
theorem walks_end_on_every_graph (tree : Tree) :
    (∀ answered dropped state pending, tree.Course answered dropped state pending →
      answered.length + dropped + pending.length ≤ tree.capacity .start tree.rootTasks) ∧
    ((∃ answered dropped final, tree.Course answered dropped final [] ∧
        Snapshot.ofTree? tree = .ok final.published) ∨
      ∃ answered dropped state task pending stop,
        tree.Course answered dropped state (task :: pending) ∧ task.id ∉ state.visited ∧
        state.performAll (tree.plan task).actions = .error stop ∧
        Snapshot.ofTree? tree = .error stop.problem) ∧
    (∀ answered dropped state pending, tree.Course answered dropped state pending →
      (∀ task ∈ answered, task.id ≠ rootId ∧ (tree.HasList task.id → tree.Opens task ∨
        (∀ id, .visit id ∉ (tree.plan task).actions) ∧ (tree.plan task).next = [])) ∧
      answered.Pairwise fun later earlier => tree.Opens earlier → later.id ≠ earlier.id) ∧
    ∀ answered dropped state middle task pending,
      tree.Course answered dropped state (task :: pending) → task.id ∉ state.visited →
      state.performAll (tree.plan task).actions = .ok middle →
      (tree.plan task).next ≠ [] ∨ tree.Opens task →
      state.visited.toFinset ⊂ middle.visited.toFinset ∧ middle.visited.toFinset ⊆ tree.keys := by
  refine ⟨?_, ofTree?_ends tree, ?_, ?_⟩
  · intro answered dropped state pending course
    have bounded := course.bounded
    unfold capacity at bounded ⊢
    omega
  · intro answered dropped state pending course
    obtain ⟨told, once⟩ := course.opened_once
    refine ⟨fun task member => ⟨(told task member).1, fun list => ?_⟩, once⟩
    exact opens_or_idle (course.accepted member) list
  · intro answered dropped state middle task pending course fresh performed more
    have after := course.stage.answer fresh performed
    exact ⟨visited_ssubset fresh performed more, after.visited_subset⟩

/-- A module that lists the root and itself, a re-export of the whole root, and one of itself. -/
def ringTree : Tree where
  index := [
    (0, { declaration := .module { name := "lib", items := [1, 2, 1] } }),
    (1, { declaration := .module { name := "a", items := [0, 1, 3] } }),
    (2, { declaration :=
      .reexport { name := "lib", source := "crate", target := some 0, glob := true } }),
    (3, { declaration := .reexport { name := "b", source := "self::b", target := some 3 } })]
  root := { name := "lib", items := [1, 2, 1] }
  rooted := rfl

/-- The walk over the ring uses its capacity up: it answers three tasks and drops five. -/
theorem walks_end_on_every_graph_ring :
    ∃ answered final, ringTree.Course answered 5 final [] ∧ answered.length = 3 ∧
      answered.length + 5 ≤ ringTree.capacity .start ringTree.rootTasks ∧
      ringTree.capacity .start ringTree.rootTasks = 8 ∧
      answered.Pairwise fun later earlier => ringTree.Opens earlier → later.id ≠ earlier.id := by
  have module : ∃ state, ringTree.Course [⟨1, [], .listed 0⟩] 2 state
      [⟨3, ["a"], .listed 1⟩, ⟨2, [], .listed 0⟩, ⟨1, [], .listed 0⟩] ∧ state = ⟨[1, 0], .empty, []⟩ :=
    ⟨_, .drop (.drop (.answer .start (by decide) rfl) (by decide)) (by decide), rfl⟩
  obtain ⟨_, module, rfl⟩ := module
  have own : ringTree.Course _ 3 _ [⟨2, [], .listed 0⟩, ⟨1, [], .listed 0⟩] :=
    .drop (.answer module (by decide) rfl) (by decide)
  have course : ringTree.Course _ 5 _ [] :=
    .drop (.drop (.answer own (by decide) rfl) (by decide)) (by decide)
  obtain ⟨bounded, _, lists, _⟩ := walks_end_on_every_graph ringTree
  exact ⟨_, _, course, rfl, bounded _ _ _ _ course, by decide, (lists _ _ _ _ course).2⟩

end ApiDelta.Tree
