import Mathlib.Data.List.Nodup
import ApiDelta.Tree.Walk

/-!
What a successful walk has done. A run lists the tasks that were answered, in order; every other task
was dropped because its entry had been visited. What the walk visited and what it published is read
off the plans of the answered tasks, so a fact about all walks is a fact about single plans and the
order in which they are carried out.
-/
namespace ApiDelta.Tree

/-! ## Actions -/

def Publication.entry (publication : Publication) : SnapshotEntry :=
  (publication.id, publication.item)

def Action.publication? : Action → Option Publication
  | .publish publication => some publication
  | _ => none

/-- What actions publish, in order. -/
def publications (actions : List Action) : List Publication :=
  actions.filterMap Action.publication?

/-- Nothing that the actions meet is refused. -/
def Accepted (actions : List Action) : Prop :=
  ∀ problem, Action.refuse problem ∉ actions

section Publications

variable {actions rest : List Action} {publication : Publication}

theorem publications_append :
    publications (actions ++ rest) = publications actions ++ publications rest :=
  List.filterMap_append

theorem publications_cons {action : Action} :
    publications (action :: actions) = action.publication?.toList ++ publications actions := by
  rw [publications, List.filterMap_cons]
  cases action.publication? <;> rfl

theorem publications_visit {id : Int} :
    publications (.visit id :: actions) = publications actions := rfl

theorem publications_publish :
    publications (.publish publication :: actions) = publication :: publications actions := rfl

theorem publications_flatMap {α : Type} (items : List α) (make : α → List Action) :
    publications (items.flatMap make) = items.flatMap fun item => publications (make item) :=
  List.filterMap_flatMap

theorem mem_publications :
    publication ∈ publications actions ↔ Action.publish publication ∈ actions := by
  simp only [publications, List.mem_filterMap]
  constructor
  · rintro ⟨action, member, same⟩
    cases action with
    | publish other => exact Option.some.inj same ▸ member
    | visit | skip | refuse => cases same
  · exact fun member => ⟨_, member, rfl⟩

theorem Accepted.of_cons {action : Action} (accepted : Accepted (action :: actions)) :
    Accepted actions :=
  fun problem refused => accepted problem (List.mem_cons_of_mem _ refused)

theorem Accepted.of_append_left (accepted : Accepted (actions ++ rest)) : Accepted actions :=
  fun problem refused => accepted problem (List.mem_append_left _ refused)

theorem Accepted.of_mem_flatMap {α : Type} {items : List α} {make : α → List Action}
    (accepted : Accepted (items.flatMap make)) {item : α} (member : item ∈ items) :
    Accepted (make item) :=
  fun problem refused => accepted problem (List.mem_flatMap.mpr ⟨item, member, refused⟩)

end Publications

namespace WalkState

variable {state after : WalkState} {actions : List Action}

/-- Actions that are carried out to the end refuse nothing. -/
theorem accepted_of_performAll (performed : state.performAll actions = .ok after) :
    Accepted actions := by
  intro problem refused
  induction actions generalizing state with
  | nil => cases refused
  | cons action rest ih =>
    simp only [performAll] at performed
    split at performed
    · cases performed
    · rename_i middle first
      rcases List.mem_cons.mp refused with rfl | later
      · cases first
      · exact ih performed later

/-- One action publishes at most what it names. -/
theorem entries_perform {action : Action} (performed : state.perform action = .ok after) :
    after.published.entries =
      (action.publication?.map Publication.entry).toList ++ state.published.entries := by
  cases action with
  | visit id =>
    cases performed
    unfold visit
    split <;> rfl
  | publish publication =>
    simp only [perform] at performed
    split at performed
    · cases performed
      rfl
    · cases performed
  | skip skipped =>
    cases performed
    rfl
  | refuse problem => cases performed

/-- Actions add what they publish, the latest first, and take nothing away. -/
theorem entries_performAll (performed : state.performAll actions = .ok after) :
    after.published.entries =
      ((publications actions).map Publication.entry).reverse ++ state.published.entries := by
  induction actions generalizing state with
  | nil =>
    cases performed
    rfl
  | cons action rest ih =>
    simp only [performAll] at performed
    split at performed
    · cases performed
    · rename_i middle first
      rw [ih performed, entries_perform first, publications_cons]
      cases action.publication? <;> simp

/-- Actions add the identities under which they publish. -/
theorem ids_performAll (performed : state.performAll actions = .ok after) :
    after.published.ids.Perm ((publications actions).map (·.id) ++ state.published.ids) := by
  have same : ((publications actions).map Publication.entry).map Prod.fst =
      (publications actions).map (·.id) := List.map_map
  rw [Snapshot.ids, entries_performAll performed, List.map_append, List.map_reverse, same]
  exact (List.reverse_perm _).append_right _

end WalkState

/-! ## Steps -/

section Steps

variable {tree : Tree} {state middle : WalkState} {task : Task} {pending : List Task}

theorem walk_drop (seen : task.id ∈ state.visited) :
    tree.walk state (task :: pending) = tree.walk state pending := by
  rw [walk, dif_pos seen]

theorem walk_answer (fresh : task.id ∉ state.visited)
    (performed : state.performAll (tree.plan task).actions = .ok middle) :
    tree.walk state (task :: pending) = tree.walk middle ((tree.plan task).next ++ pending) := by
  rw [walk, dif_neg fresh]
  split
  · rename_i stopped
    rw [performed] at stopped
    cases stopped
  · rename_i after reached
    rw [performed] at reached
    cases reached
    rfl

theorem walk_stop {stop : Stop} (fresh : task.id ∉ state.visited)
    (performed : state.performAll (tree.plan task).actions = .error stop) :
    tree.walk state (task :: pending) = .error stop := by
  rw [walk, dif_neg fresh]
  split
  · rename_i other stopped
    rw [performed] at stopped
    cases stopped
    rfl
  · rename_i reached
    rw [performed] at reached
    cases reached

end Steps

/-! ## Runs -/

/-- A walk that comes to its end: from a state with pending tasks, through the tasks answered on the
way, to a final state. A task is dropped only because its entry has been visited. -/
inductive Run (tree : Tree) : WalkState → List Task → List Task → WalkState → Prop where
  | done {state : WalkState} : Run tree state [] [] state
  | drop {state final : WalkState} {task : Task} {pending answered : List Task}
      (seen : task.id ∈ state.visited) (rest : Run tree state pending answered final) :
      Run tree state (task :: pending) answered final
  | answer {state middle final : WalkState} {task : Task} {pending answered : List Task}
      (fresh : task.id ∉ state.visited)
      (performed : state.performAll (tree.plan task).actions = .ok middle)
      (rest : Run tree middle ((tree.plan task).next ++ pending) answered final) :
      Run tree state (task :: pending) (task :: answered) final

/-- Everything that the plans of tasks publish, in order. -/
def emissions (tree : Tree) (answered : List Task) : List Publication :=
  answered.flatMap fun task => publications (tree.plan task).actions

section Runs

variable {tree : Tree} {state final : WalkState} {pending answered : List Task}

/-- The walk ends well exactly along a run. -/
theorem walk_eq_ok_iff :
    tree.walk state pending = .ok final ↔ ∃ answered, Run tree state pending answered final := by
  constructor
  · intro walked
    fun_induction walk tree state pending with
    | case1 state =>
      cases walked
      exact ⟨[], .done⟩
    | case2 state task pending seen ih =>
      obtain ⟨answered, run⟩ := ih walked
      exact ⟨answered, .drop seen run⟩
    | case3 => cases walked
    | case4 state task pending fresh middle performed ih =>
      obtain ⟨answered, run⟩ := ih walked
      exact ⟨task :: answered, .answer fresh performed run⟩
  · rintro ⟨answered, run⟩
    induction run with
    | done => rw [walk]
    | drop seen _ ih => rw [walk_drop seen, ih]
    | answer fresh performed _ ih => rw [walk_answer fresh performed, ih]

theorem Run.accepted (run : Run tree state pending answered final) {task : Task}
    (member : task ∈ answered) : Accepted (tree.plan task).actions := by
  induction run with
  | done => cases member
  | drop _ _ ih => exact ih member
  | answer _ performed _ ih =>
    rcases List.mem_cons.mp member with rfl | later
    · exact WalkState.accepted_of_performAll performed
    · exact ih later

/-- What is visited in the end was visited before or is visited by an answered task. -/
theorem Run.mem_visited (run : Run tree state pending answered final) {id : Int} :
    id ∈ final.visited ↔
      id ∈ state.visited ∨ ∃ task ∈ answered, Action.visit id ∈ (tree.plan task).actions := by
  induction run with
  | done => simp
  | drop _ _ ih => exact ih
  | answer _ performed _ ih =>
    simp only [ih, WalkState.mem_visited_performAll performed, List.mem_cons, exists_eq_or_imp,
      or_assoc]

/-- What is published in the end was published before or is an emission of the run, and none of the
emissions is lost. -/
theorem Run.entries (run : Run tree state pending answered final) :
    final.published.entries =
      ((tree.emissions answered).map Publication.entry).reverse ++ state.published.entries := by
  induction run with
  | done => rfl
  | drop _ _ ih => exact ih
  | answer _ performed _ ih =>
    rw [ih, WalkState.entries_performAll performed, emissions, emissions, List.flatMap_cons]
    simp

/-- A snapshot holds the emissions of its run, the latest first. -/
theorem Run.entries_of_start (run : Run tree .start pending answered final) :
    final.published.entries = ((tree.emissions answered).map Publication.entry).reverse := by
  rw [run.entries]
  exact List.append_nil _

/-- No two emissions of a walk share an identity. -/
theorem Run.nodup_ids (run : Run tree .start pending answered final) :
    ((tree.emissions answered).map (·.id)).Nodup := by
  have distinct := final.published.nodup
  rw [run.entries_of_start, List.map_reverse, List.nodup_reverse, List.map_map] at distinct
  exact distinct

theorem Run.ids_subset (run : Run tree state pending answered final) :
    state.published.ids ⊆ final.published.ids := by
  intro id member
  rw [Snapshot.ids, run.entries, List.map_append]
  exact List.mem_append_right _ member

end Runs

/-! ## Runs in parts -/

section Parts

variable {tree : Tree} {state middle final : WalkState} {left right pending : List Task}
  {answered first second : List Task}

theorem Run.append (run : Run tree state left first middle)
    (rest : Run tree middle right second final) :
    Run tree state (left ++ right) (first ++ second) final := by
  induction run with
  | done => exact rest
  | drop seen _ ih => exact .drop seen (ih rest)
  | answer fresh performed _ ih =>
    have rest' := ih rest
    rw [List.append_assoc] at rest'
    exact .answer fresh performed rest'

/-- The first of the pending tasks are dealt with, and all that follows from them, before the others. -/
theorem Run.split (run : Run tree state (left ++ right) answered final) :
    ∃ first second middle, Run tree state left first middle ∧ Run tree middle right second final := by
  generalize whole : left ++ right = pending at run
  induction run generalizing left with
  | done =>
    obtain ⟨rfl, rfl⟩ := List.append_eq_nil_iff.mp whole
    exact ⟨[], [], _, .done, .done⟩
  | drop seen rest ih =>
    cases left with
    | nil =>
      cases whole
      exact ⟨[], _, _, .done, .drop seen rest⟩
    | cons task left =>
      cases whole
      obtain ⟨first, second, middle, begun, ended⟩ := ih rfl
      exact ⟨first, second, middle, .drop seen begun, ended⟩
  | answer fresh performed rest ih =>
    cases left with
    | nil =>
      cases whole
      exact ⟨[], _, _, .done, .answer fresh performed rest⟩
    | cons task left =>
      cases whole
      obtain ⟨first, second, middle, begun, ended⟩ := ih (List.append_assoc _ _ _)
      exact ⟨_ :: first, second, middle, .answer fresh performed begun, ended⟩

/-- There is one way to the end. -/
theorem Run.unique {final' : WalkState} (run : Run tree state pending first final)
    (other : Run tree state pending second final') : first = second := by
  induction run generalizing second with
  | done =>
    cases other
    rfl
  | drop seen _ ih =>
    cases other with
    | drop _ rest => exact ih rest
    | answer fresh => exact absurd seen fresh
  | answer fresh performed _ ih =>
    cases other with
    | drop seen => exact absurd seen fresh
    | answer _ performed' rest =>
      cases performed.symm.trans performed'
      exact congrArg _ (ih rest)

end Parts

/-! ## Whole trees -/

/-- What a walk starts with: the items of the root module. -/
def rootTasks (tree : Tree) : List Task :=
  listedTasks [] rootId tree.root.items

theorem ofTree?_eq_ok_iff {tree : Tree} {s : Snapshot} :
    Snapshot.ofTree? tree = .ok s ↔
      ∃ answered final, Run tree .start tree.rootTasks answered final ∧ final.published = s := by
  unfold Snapshot.ofTree? walkAll
  constructor
  · intro translated
    split at translated
    · cases translated
    · rename_i final walked
      cases translated
      obtain ⟨answered, run⟩ := walk_eq_ok_iff.mp walked
      exact ⟨answered, final, run, rfl⟩
  · rintro ⟨answered, final, run, rfl⟩
    have walked : tree.walk .start (listedTasks [] rootId tree.root.items) = .ok final :=
      walk_eq_ok_iff.mpr ⟨answered, run⟩
    rw [walked]

/-- A tree is refused exactly if the walk over it is broken off. -/
theorem ofTree?_eq_error_iff {tree : Tree} {problem : Problem} :
    Snapshot.ofTree? tree = .error problem ↔
      ∃ stop, tree.walk .start tree.rootTasks = .error stop ∧ stop.problem = problem := by
  unfold Snapshot.ofTree? walkAll rootTasks
  cases tree.walk .start (listedTasks [] rootId tree.root.items) <;> simp

end ApiDelta.Tree
