import ApiDelta.Snapshot.Basic
import ApiDelta.Tree.Plan

/-!
The walk from the root module over everything it reaches. It keeps a list of pending tasks, the next
one first. A task whose entry has been visited is dropped, so the first path that reaches an entry
wins; any other is answered by the actions of its plan, and the tasks of the plan go before those that
are pending. The walk ends because a plan with further tasks visits the entry it was made for, which
leaves fewer entries to visit.
-/
namespace ApiDelta.Tree

/-- What a walk has met: the entries visited, the latest first, the items published, and what was
passed over, the latest first. -/
structure WalkState where
  visited : List Int
  published : Snapshot
  skipped : List Skipped

/-- A walk that was broken off: why, and what it had passed over, the latest first. -/
structure Stop where
  problem : Problem
  skipped : List Skipped

namespace WalkState

/-- Before the first task: the root is visited. -/
def start : WalkState :=
  ⟨[rootId], .empty, []⟩

def visit (state : WalkState) (id : Int) : WalkState :=
  if id ∈ state.visited then state else { state with visited := id :: state.visited }

/-- Adds an item under an identity that is still free. -/
def publish (state : WalkState) (publication : Publication)
    (free : publication.id ∉ state.published.ids) : WalkState :=
  { state with
    published := ⟨(publication.id, publication.item) :: state.published.entries,
      List.nodup_cons.mpr ⟨free, state.published.nodup⟩⟩ }

def perform (state : WalkState) : Action → Except Stop WalkState
  | .visit id => .ok (state.visit id)
  | .publish publication =>
    if free : publication.id ∉ state.published.ids then .ok (state.publish publication free)
    else .error ⟨.collision publication.id, state.skipped⟩
  | .skip skipped => .ok { state with skipped := skipped :: state.skipped }
  | .refuse problem => .error ⟨problem, state.skipped⟩

/-- Carries out actions up to the first that fails. -/
def performAll (state : WalkState) : List Action → Except Stop WalkState
  | [] => .ok state
  | action :: rest =>
    match state.perform action with
    | .error stop => .error stop
    | .ok state => state.performAll rest

theorem mem_visited_visit {state : WalkState} {id other : Int} :
    other ∈ (state.visit id).visited ↔ other = id ∨ other ∈ state.visited := by
  unfold visit
  split
  · constructor
    · exact Or.inr
    · rintro (rfl | member)
      · assumption
      · exact member
  · exact List.mem_cons

/-- One action visits at most the entry that it names. -/
theorem mem_visited_perform {state after : WalkState} {action : Action}
    (performed : state.perform action = .ok after) {id : Int} :
    id ∈ after.visited ↔ id ∈ state.visited ∨ action = .visit id := by
  cases action with
  | visit other =>
    simp only [perform, Except.ok.injEq] at performed
    subst performed
    rw [mem_visited_visit]
    constructor
    · rintro (rfl | member)
      · exact .inr rfl
      · exact .inl member
    · rintro (member | same)
      · exact .inr member
      · exact .inl (Action.visit.inj same).symm
  | publish publication =>
    simp only [perform] at performed
    split at performed
    · cases performed
      simp [publish]
    · cases performed
  | skip skipped =>
    simp only [perform, Except.ok.injEq] at performed
    subst performed
    simp
  | refuse problem => cases performed

/-- The entries visited by actions are those that the actions name. -/
theorem mem_visited_performAll {actions : List Action} {state after : WalkState}
    (performed : state.performAll actions = .ok after) {id : Int} :
    id ∈ after.visited ↔ id ∈ state.visited ∨ Action.visit id ∈ actions := by
  induction actions generalizing state with
  | nil =>
    simp only [performAll, Except.ok.injEq] at performed
    subst performed
    simp
  | cons action rest ih =>
    simp only [performAll] at performed
    split at performed
    · cases performed
    · rename_i middle first
      rw [ih performed, mem_visited_perform first, List.mem_cons, or_assoc]
      constructor
      · rintro (member | same | later)
        · exact .inl member
        · exact .inr (.inl same.symm)
        · exact .inr (.inr later)
      · rintro (member | same | later)
        · exact .inl member
        · exact .inr (.inl same.symm)
        · exact .inr (.inr later)

/-- How many entries of a tree are still to be visited. -/
def unvisited (tree : Tree) (state : WalkState) : Nat :=
  tree.index.countP fun pair => pair.1 ∉ state.visited

end WalkState

theorem mem_index_of_entry? {tree : Tree} {id : Int} {entry : Entry}
    (found : tree.entry? id = some entry) : (id, entry) ∈ tree.index := by
  unfold entry? at found
  generalize tree.index = index at found
  induction index with
  | nil => cases found
  | cons pair rest ih =>
    obtain ⟨key, value⟩ := pair
    rw [List.lookup_cons] at found
    split at found
    · rename_i same
      cases found
      rw [eq_of_beq same]
      exact List.mem_cons_self
    · exact List.mem_cons_of_mem _ (ih found)

theorem typePlan_visit {id : Int} {deprecated : Bool} {type : Identity} {name : String}
    {parts : List Action} {form : TypeForm} {impls : List Int} :
    Action.visit id ∈ (typePlan id deprecated type name parts form impls).actions := by
  simp [typePlan]

/-- The plan for an item of a module visits the item. -/
theorem itemPlan_visit (tree : Tree) (id : Int) (entry : Entry) (path : List String)
    (givenName : Option String) : Action.visit id ∈ (tree.itemPlan id entry path givenName).actions := by
  unfold itemPlan
  split <;>
    simp [publishPlan, structPlan, unionPlan, enumPlan, typePlan_visit, traitPlan, reexportPlan]
  split <;> simp

/-- A plan that asks for more has visited the entry it was made for, and that entry exists. -/
theorem plan_progress {tree : Tree} {task : Task} (more : (tree.plan task).next ≠ []) :
    Action.visit task.id ∈ (tree.plan task).actions ∧ (tree.entry? task.id).isSome := by
  unfold plan at more ⊢
  split at more
  · cases more rfl
  · rename_i found
    split at more
    · cases more rfl
    · simp [found, itemPlan_visit]
  · cases more rfl
  · rename_i found
    split at more
    · cases more rfl
    · simp [found, itemPlan_visit]
  · cases more rfl
  · rename_i found
    split at more
    · simp [found]
    · cases more rfl
  · cases more rfl
  · rename_i found
    split at more
    · rename_i decl _
      unfold implPlan at more
      split at more
      · cases more rfl
      · split at more <;> cases more rfl
    · cases more rfl

theorem unvisited_le {tree : Tree} {state after : WalkState} {actions : List Action}
    (performed : state.performAll actions = .ok after) :
    after.unvisited tree ≤ state.unvisited tree := by
  refine List.countP_mono_left fun pair _ still => ?_
  simp only [decide_eq_true_eq] at still ⊢
  exact fun member => still ((WalkState.mem_visited_performAll performed).mpr (.inl member))

theorem unvisited_lt {tree : Tree} {state after : WalkState} {actions : List Action} {id : Int}
    (performed : state.performAll actions = .ok after) (fresh : id ∉ state.visited)
    (visits : Action.visit id ∈ actions) (present : (tree.entry? id).isSome) :
    after.unvisited tree < state.unvisited tree := by
  obtain ⟨entry, found⟩ := Option.isSome_iff_exists.mp present
  have member := mem_index_of_entry? found
  have spent : id ∈ after.visited :=
    (WalkState.mem_visited_performAll performed).mpr (.inr visits)
  unfold WalkState.unvisited
  rw [List.countP_eq_length_filter, List.countP_eq_length_filter]
  have split : (tree.index.filter fun pair => decide (pair.1 ∉ after.visited)) =
      (tree.index.filter fun pair => decide (pair.1 ∉ state.visited)).filter
        fun pair => decide (pair.1 ∉ after.visited) := by
    rw [List.filter_filter]
    refine List.filter_congr fun pair _ => ?_
    by_cases gone : pair.1 ∈ after.visited
    · simp [gone]
    · have before : pair.1 ∉ state.visited := fun seen =>
        gone ((WalkState.mem_visited_performAll performed).mpr (.inl seen))
      simp [gone, before]
  rw [split]
  refine List.length_filter_lt_length_iff_exists.mpr ⟨(id, entry), ?_, ?_⟩
  · simp [member, fresh]
  · simp [spent]

/-- Carries out the pending tasks and all that follow from them. -/
def walk (tree : Tree) (state : WalkState) : List Task → Except Stop WalkState
  | [] => .ok state
  | task :: rest =>
    if _seen : task.id ∈ state.visited then walk tree state rest
    else
      match _performed : state.performAll (tree.plan task).actions with
      | .error stop => .error stop
      | .ok after => walk tree after ((tree.plan task).next ++ rest)
termination_by pending => (state.unvisited tree, pending.length)
decreasing_by
  · exact Prod.Lex.right _ (Nat.lt_succ_self _)
  · by_cases more : (tree.plan task).next = []
    · rcases Nat.lt_or_ge (after.unvisited tree) (state.unvisited tree) with less | same
      · exact Prod.Lex.left _ _ less
      · rw [Nat.le_antisymm (unvisited_le _performed) same, more]
        exact Prod.Lex.right _ (Nat.lt_succ_self _)
    · obtain ⟨visits, present⟩ := plan_progress more
      exact Prod.Lex.left _ _ (unvisited_lt _performed _seen visits present)

/-- The walk over a whole tree. -/
def walkAll (tree : Tree) : Except Stop WalkState :=
  tree.walk .start (listedTasks [] rootId tree.root.items)

end Tree

/-- The public items that the root module of a tree reaches. -/
def Snapshot.ofTree? (tree : Tree) : Except Tree.Problem Snapshot :=
  match tree.walkAll with
  | .error stop => .error stop.problem
  | .ok state => .ok state.published

end ApiDelta
