import ApiDelta.Proofs.FramedPlans
import ApiDelta.Proofs.WalkExactness

/-!
The walks over two trees, in lockstep. If tasks that match are planned alike, the two walks drop the
same tasks and answer the same tasks, in the same order. So both come to their end with publications
that match one by one, or both are broken off by the same problem.
-/
namespace ApiDelta.Tree

variable {pair : Pairing}

/-! ## Actions -/

/-- Two states that no task and no action can tell apart: the same entries are visited, and the same
identities are taken. -/
structure WalkState.Matches (pair : Pairing) (state state' : WalkState) : Prop where
  begun : rootId ∈ state.visited
  visited : state'.visited = state.visited.map pair.scheme
  ids : state'.published.ids = state.published.ids

/-- Both sides go on, in states that match, or both are broken off by one problem, told in different
numbers. -/
inductive Pairing.Lockstep (pair : Pairing) :
    Except Stop WalkState → Except Stop WalkState → Prop where
  | ok {state state' : WalkState} (same : state.Matches pair state') :
      Lockstep pair (.ok state) (.ok state')
  | error {stop stop' : Stop} (same : stop'.problem = stop.problem.renumber pair.scheme) :
      Lockstep pair (.error stop) (.error stop')

namespace WalkState

variable {state state' : WalkState}

theorem start_matches (pair : Pairing) : start.Matches pair start where
  begun := List.mem_singleton_self rootId
  visited := by rw [start, List.map_singleton, pair.scheme.apply_root]
  ids := rfl

theorem Matches.mem_visited (same : state.Matches pair state') {id : Int} :
    pair.scheme id ∈ state'.visited ↔ id ∈ state.visited := by
  rw [same.visited, Renumbering.mem_map]

theorem visit_matches (same : state.Matches pair state') (id : Int) :
    (state.visit id).Matches pair (state'.visit (pair.scheme id)) := by
  unfold visit
  by_cases seen : id ∈ state.visited
  · rw [if_pos seen, if_pos (same.mem_visited.mpr seen)]
    exact same
  · rw [if_neg seen, if_neg (mt same.mem_visited.mp seen)]
    exact ⟨List.mem_cons_of_mem _ same.begun, by rw [same.visited, List.map_cons], same.ids⟩

/-- Actions that match are carried out alike. -/
theorem perform_lockstep {action action' : Action} (same : state.Matches pair state')
    (actions : action.Matches pair action') :
    pair.Lockstep (state.perform action) (state'.perform action') := by
  cases actions with
  | @visit id => exact .ok (visit_matches same id)
  | @publish publication publication' told =>
    simp only [perform]
    by_cases free : publication.id ∉ state.published.ids
    · have free' : publication'.id ∉ state'.published.ids := by rwa [same.ids, told.id]
      rw [dif_pos free, dif_pos free']
      refine .ok ⟨same.begun, same.visited, ?_⟩
      have taken := congrArg₂ List.cons told.id same.ids
      exact taken
    · have taken : ¬publication'.id ∉ state'.published.ids := by rwa [same.ids, told.id]
      rw [dif_neg free, dif_neg taken, told.id]
      exact .error rfl
  | skip => exact .ok ⟨same.begun, same.visited, same.ids⟩
  | refuse => exact .error rfl

theorem performAll_lockstep {actions actions' : List Action} (same : state.Matches pair state')
    (matched : List.Forall₂ (Action.Matches pair) actions actions') :
    pair.Lockstep (state.performAll actions) (state'.performAll actions') := by
  induction matched generalizing state state' with
  | nil => exact .ok same
  | @cons action action' rest rest' first _ ih =>
    have step := perform_lockstep same first
    simp only [performAll]
    generalize state.perform action = outcome, state'.perform action' = outcome' at step
    cases step with
    | ok same => exact ih same
    | error same => exact .error same

end WalkState

theorem publications_matches {actions actions' : List Action}
    (matched : List.Forall₂ (Action.Matches pair) actions actions') :
    List.Forall₂ (Publication.Matches pair) (publications actions) (publications actions') := by
  induction matched with
  | nil => exact .nil
  | cons first _ ih =>
    cases first with
    | publish told => exact .cons told ih
    | visit | skip | refuse => exact ih

/-! ## Walks -/

/-- How two walks end: along runs that publish alike, or broken off by one problem, told in different
numbers. -/
inductive Pairing.Parallel (pair : Pairing) (state state' : WalkState) (pending pending' : List Task) :
    Prop where
  | ended {answered answered' : List Task} {final final' : WalkState}
      (run : Run pair.first state pending answered final)
      (run' : Run pair.second state' pending' answered' final')
      (emitted : List.Forall₂ (Publication.Matches pair) (pair.first.emissions answered)
        (pair.second.emissions answered')) : Parallel pair state state' pending pending'
  | stopped {stop stop' : Stop} (walked : pair.first.walk state pending = .error stop)
      (walked' : pair.second.walk state' pending' = .error stop')
      (same : stop'.problem = stop.problem.renumber pair.scheme) :
      Parallel pair state state' pending pending'

/-- A task that the first walk answers is not for the root, and the second walk answers its
counterpart. -/
theorem WalkState.Matches.fresh {state state' : WalkState} {task task' : Task}
    (same : state.Matches pair state') (tasks : task.Matches pair task')
    (fresh : task.id ∉ state.visited) : task.id ≠ rootId ∧ task'.id ∉ state'.visited := by
  rw [tasks.id, same.mem_visited]
  exact ⟨fun root => fresh (root ▸ same.begun), fresh⟩

/-- Walks run in parallel if the tasks that they meet on the way are planned alike. -/
theorem walk_parallel (asks : Task → Prop)
    (planned : ∀ task task', asks task → task.id ≠ rootId → task.Matches pair task' →
      (pair.first.plan task).Matches pair (pair.second.plan task'))
    (onward : ∀ task, asks task → Accepted (pair.first.plan task).actions →
      ∀ next ∈ (pair.first.plan task).next, asks next)
    {state state' : WalkState} {pending pending' : List Task} (same : state.Matches pair state')
    (asked : ∀ task ∈ pending, asks task)
    (tasks : List.Forall₂ (Task.Matches pair) pending pending') :
    pair.Parallel state state' pending pending' := by
  fun_induction walk pair.first state pending generalizing state' pending' with
  | case1 state =>
    cases tasks
    exact .ended .done .done .nil
  | case2 state task pending seen ih =>
    cases tasks with
    | @cons _ task' _ pending' first rest =>
    have seen' : task'.id ∈ state'.visited := by rwa [first.id, same.mem_visited]
    cases ih same (fun other member => asked other (List.mem_cons_of_mem _ member)) rest with
    | ended run run' emitted => exact .ended (.drop seen run) (.drop seen' run') emitted
    | stopped walked walked' problem =>
      exact .stopped ((walk_drop seen).trans walked) ((walk_drop seen').trans walked') problem
  | case3 state task pending fresh stop performed =>
    cases tasks with
    | @cons _ task' _ pending' first rest =>
    obtain ⟨inner, fresh'⟩ := same.fresh first fresh
    have plans := planned task task' (asked task List.mem_cons_self) inner first
    have outcomes := WalkState.performAll_lockstep same plans.actions
    rw [performed] at outcomes
    generalize performed' : state'.performAll (pair.second.plan task').actions = outcome' at outcomes
    cases outcomes with
    | error problem => exact .stopped (walk_stop fresh performed) (walk_stop fresh' performed') problem
  | case4 state task pending fresh middle performed ih =>
    cases tasks with
    | @cons _ task' _ pending' first rest =>
    obtain ⟨inner, fresh'⟩ := same.fresh first fresh
    have known := asked task List.mem_cons_self
    have plans := planned task task' known inner first
    have outcomes := WalkState.performAll_lockstep same plans.actions
    rw [performed] at outcomes
    generalize performed' : state'.performAll (pair.second.plan task').actions = outcome' at outcomes
    cases outcomes with
    | @ok _ middle' same =>
    have asked' : ∀ next ∈ (pair.first.plan task).next ++ pending, asks next := by
      intro next member
      rcases List.mem_append.mp member with new | old
      · exact onward task known (WalkState.accepted_of_performAll performed) next new
      · exact asked next (List.mem_cons_of_mem _ old)
    cases ih same asked' (List.rel_append plans.next rest) with
    | ended run run' emitted =>
      refine .ended (.answer fresh performed run) (.answer fresh' performed' run') ?_
      simp only [emissions, List.flatMap_cons]
      exact List.rel_append (publications_matches plans.actions) emitted
    | stopped walked walked' problem =>
      exact .stopped ((walk_answer fresh performed).trans walked)
        ((walk_answer fresh' performed').trans walked') problem

/-! ## Whole trees -/

theorem rootTasks_matches (framed : pair.Framed rootId) :
    List.Forall₂ (Task.Matches pair) pair.first.rootTasks pair.second.rootTasks := by
  have declared := declaration?_rootId pair.first
  have declared' := declaration?_rootId pair.second
  have tasks : List.Forall₂ (Task.Matches pair) (listedTasks [] rootId pair.first.root.items)
      (listedTasks [] (pair.scheme rootId) (pair.first.root.items.map pair.scheme)) :=
    listedTasks_matches pair.first.root.items
  rcases framed.found with ⟨absent, _⟩ | ⟨entry, entry', found, found', frame⟩
  · rw [declaration?, absent] at declared
    cases declared
  · rw [pair.scheme.apply_root] at found' tasks
    rw [declared_of_found found] at declared
    rw [declared_of_found found'] at declared'
    rw [Option.some.inj declared, Option.some.inj declared'] at frame
    cases frame with
    | module _ items => rwa [rootTasks, rootTasks, items]

/-- The walks over two trees with the same frames throughout run in parallel. -/
theorem parallel_of_framed (framed : ∀ id, pair.Framed id) :
    pair.Parallel .start .start pair.first.rootTasks pair.second.rootTasks :=
  walk_parallel (fun _ => True)
    (fun task _ _ inner same => plan_matches same inner (framed task.id) fun _ child _ => framed child)
    (fun _ _ _ _ _ => trivial) (WalkState.start_matches pair) (fun _ _ => trivial)
    (rootTasks_matches (framed rootId))

/-! ## Outcomes -/

/-- Publications that match say the same if nothing was edited in what they tell of. -/
theorem entries_of_matches {told told' : List Publication}
    (matched : List.Forall₂ (Publication.Matches pair) told told')
    (unedited : ∀ publication ∈ told,
      pair.Untouched publication.source ∧ pair.SameFlag publication.source) :
    told'.map Publication.entry = told.map Publication.entry := by
  induction matched with
  | nil => rfl
  | @cons publication publication' rest rest' first _ ih =>
    obtain ⟨⟨untouched, flag⟩, unedited⟩ := List.forall_mem_cons.mp unedited
    have entry : publication'.entry = publication.entry :=
      Prod.ext first.id (first.item.eq untouched flag)
    rw [List.map_cons, List.map_cons, entry, ih unedited]

/-- If two walks run in parallel and nothing reachable was edited, the outcomes are the same, up to the
numbers in a refusal. -/
theorem ofTree?_of_parallel
    (parallel : pair.Parallel .start .start pair.first.rootTasks pair.second.rootTasks)
    (unedited : ∀ id, pair.first.Reachable id → pair.Untouched id ∧ pair.SameFlag id) :
    Snapshot.ofTree? pair.second =
      (Snapshot.ofTree? pair.first).mapError (Problem.renumber pair.scheme) := by
  cases parallel with
  | @ended answered answered' final final' run run' emitted =>
    have reached : ∀ publication ∈ pair.first.emissions answered,
        pair.first.Reachable publication.source := by
      intro publication told
      exact ((run.tracks (tracks_start _)).mem_visited_iff _).mp (run.sourced told).1
    have entries : final'.published.entries = final.published.entries := by
      rw [run.entries_of_start, run'.entries_of_start,
        entries_of_matches emitted fun publication told => unedited _ (reached publication told)]
    have published : final'.published = final.published := (Snapshot.mk.injEq ..).mpr entries
    have translated : Snapshot.ofTree? pair.first = .ok final.published :=
      ofTree?_eq_ok_iff.mpr ⟨_, _, run, rfl⟩
    rw [translated]
    exact ofTree?_eq_ok_iff.mpr ⟨_, _, run', published⟩
  | @stopped stop stop' walked walked' same =>
    have refused : Snapshot.ofTree? pair.first = .error stop.problem :=
      ofTree?_eq_error_iff.mpr ⟨stop, walked, rfl⟩
    rw [refused]
    exact ofTree?_eq_error_iff.mpr ⟨stop', walked', same⟩

end ApiDelta.Tree
