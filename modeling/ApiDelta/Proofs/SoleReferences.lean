import ApiDelta.Proofs.LiveReferences
import ApiDelta.Proofs.ReexportChains

/-!
Entries that are referred to once. If a single reference leads to an entry, and the entry is no part, the
walk asks for it by a single task. That task is put when the entry with the reference is answered, and
until it has been answered itself, the entry has not been visited.
-/
namespace ApiDelta.Tree

/-- One entry refers to another, once, and no other entry refers to that. -/
structure Sole (tree : Tree) (owner id : Int) : Prop where
  inner : id ≠ rootId
  whole : ¬tree.IsPart id
  only : ∀ referrer, ∀ reference ∈ tree.references referrer, reference.id = id → referrer = owner
  once : ((tree.sought owner).map Reference.id).count id ≤ 1

/-- How many tasks ask for an entry. -/
def asking (id : Int) (tasks : List Task) : Nat :=
  (tasks.map Task.id).count id

section Asking

variable {tree : Tree} {id owner : Int} {task : Task} {tasks rest pending : List Task}
  {state middle : WalkState}

theorem asking_append : asking id (tasks ++ rest) = asking id tasks + asking id rest := by
  simp [asking]

theorem asking_cons :
    asking id (task :: rest) = asking id rest + if task.id = id then 1 else 0 := by
  simp [asking, List.count_cons]

namespace Sole

variable (sole : tree.Sole owner id)

include sole

/-- Where an entry is not the one that refers to it, it is not referred to. -/
theorem count_eq_zero {other : Int} (different : other ≠ owner) :
    ((tree.sought other).map Reference.id).count id = 0 := by
  refine List.count_eq_zero.mpr fun member => ?_
  obtain ⟨reference, sought, named⟩ := List.mem_map.mp member
  exact different (sole.only other reference (List.mem_append_right _ sought) named)

theorem asking_rootTasks : asking id tree.rootTasks ≤ if owner = rootId then 1 else 0 := by
  have sought : tree.sought rootId = Role.item.references rootId tree.root.items := by
    simp only [Tree.sought, declaration?_rootId]
  rw [asking, rootTasks, ids_listedTasks, ← sought]
  split
  · rename_i isRoot
    exact isRoot ▸ sole.once
  · rename_i noRoot
    exact (sole.count_eq_zero (Ne.symm noRoot)).le

/-- Answering a task asks for the entry only if the task is for its owner, and then once. -/
theorem asking_next (accepted : Accepted (tree.plan task).actions) :
    asking id (tree.plan task).next ≤
      if task.id = owner ∧ .visit task.id ∈ (tree.plan task).actions then 1 else 0 := by
  by_cases heeded : tree.Heeds task
  · have begun := (tells_plan heeded accepted).begun
    rw [asking, ids_next accepted heeded]
    by_cases isOwner : task.id = owner
    · rw [if_pos ⟨isOwner, begun⟩, isOwner]
      exact sole.once
    · rw [sole.count_eq_zero isOwner]
      exact Nat.zero_le _
  · rw [next_of_passed accepted heeded]
    exact Nat.zero_le _

/-- Only the task that asks for the entry visits it. -/
theorem visits (accepted : Accepted (tree.plan task).actions)
    (visit : .visit id ∈ (tree.plan task).actions) : task.id = id := by
  have heeded := heeds_of_visit accepted visit
  exact ((tells_plan heeded accepted).visits id visit).elim Eq.symm fun isPart =>
    absurd isPart sole.whole

/-- Along a walk, the tasks that ask for the entry, and its visit, are at most one altogether, and none
until its owner has been visited. -/
theorem asked_once (stage : tree.Stage state pending) :
    asking id pending + (if id ∈ state.visited then 1 else 0) ≤
      if owner ∈ state.visited then 1 else 0 := by
  induction stage with
  | start =>
    have bound := sole.asking_rootTasks
    simpa [WalkState.start, sole.inner] using bound
  | @drop state task pending _ _ ih =>
    rw [asking_cons] at ih
    omega
  | @answer state middle task pending _ fresh performed ih =>
    have accepted := WalkState.accepted_of_performAll performed
    have visited : ∀ other, other ∈ middle.visited ↔
        other ∈ state.visited ∨ .visit other ∈ (tree.plan task).actions :=
      fun _ => WalkState.mem_visited_performAll performed
    have asked := sole.asking_next accepted
    have grows : (if id ∈ middle.visited then 1 else 0) ≤
        (if id ∈ state.visited then 1 else 0) + if task.id = id then 1 else 0 := by
      by_cases now : .visit id ∈ (tree.plan task).actions
      · simp only [sole.visits accepted now, if_true]
        split <;> omega
      · simp [visited, now]
    rw [asking_cons] at ih
    rw [asking_append]
    -- The entry can be asked for anew only when its owner is visited for the first time.
    by_cases opens : task.id = owner ∧ .visit task.id ∈ (tree.plan task).actions
    · have unmet : owner ∉ state.visited := opens.1 ▸ fresh
      have met : owner ∈ middle.visited := (visited owner).mpr (.inr (opens.1 ▸ opens.2))
      rw [if_pos opens] at asked
      rw [if_neg unmet] at ih
      rw [if_pos met]
      omega
    · have kept : (if owner ∈ state.visited then 1 else 0) ≤
          if owner ∈ middle.visited then 1 else 0 := by
        by_cases met : owner ∈ state.visited <;> simp [visited, met]
      rw [if_neg opens] at asked
      omega

/-- While a task asks for the entry, its owner has been visited and the entry has not. -/
theorem pending_of_asked (stage : tree.Stage state (task :: pending)) (asks : task.id = id) :
    owner ∈ state.visited ∧ id ∉ state.visited := by
  have bound := sole.asked_once stage
  rw [asking_cons, if_pos asks] at bound
  constructor
  · by_contra unmet
    rw [if_neg unmet] at bound
    omega
  · intro seen
    rw [if_pos seen] at bound
    split at bound <;> omega

/-- The entry is visited after its owner. -/
theorem owner_visited (stage : tree.Stage state pending) (seen : id ∈ state.visited) :
    owner ∈ state.visited := by
  by_contra unmet
  have bound := sole.asked_once stage
  rw [if_pos seen, if_neg unmet] at bound
  omega

end Sole

end Asking

end ApiDelta.Tree
