import ApiDelta.Proofs.Reordering
import ApiDelta.Proofs.WalkExactness

/-!
Walks over two trees that differ in the order of the parts of their entries. Whether actions are carried
out to the end, and what they come to, does not depend on their order: they must refuse nothing, and
publish under identities that are free and different from each other. So the two walks drop and answer
the same tasks, in the same order, and end in states that hold the same, or both are broken off.
-/
namespace ApiDelta.Tree

/-! ## Actions -/

section Actions

variable {actions actions' : List Action} {state state' : WalkState}

theorem accepted_of_perm (perm : actions.Perm actions') (accepted : Accepted actions) :
    Accepted actions' :=
  fun problem refused => accepted problem (perm.mem_iff.mpr refused)

theorem publications_perm (perm : actions.Perm actions') :
    (publications actions).Perm (publications actions') :=
  perm.filterMap _

/-- Actions can be carried out exactly if they refuse nothing and each identity that they publish under
is free. -/
theorem WalkState.performAll_isOk_iff :
    (∃ after, state.performAll actions = .ok after) ↔
      Accepted actions ∧ ((publications actions).map (·.id) ++ state.published.ids).Nodup := by
  induction actions generalizing state with
  | nil =>
    simp only [performAll, Except.ok.injEq, exists_eq', true_iff]
    exact ⟨fun problem member => absurd member List.not_mem_nil, state.published.nodup⟩
  | cons action rest ih =>
    simp only [performAll]
    cases action with
    | visit id =>
      have untouched : (state.visit id).published = state.published := by
        unfold visit
        split <;> rfl
      simp only [perform, ih, untouched, publications_visit, Accepted, List.mem_cons, reduceCtorEq,
        false_or]
    | skip skipped =>
      simp only [perform, ih, Accepted, List.mem_cons, reduceCtorEq, false_or]
      rfl
    | refuse problem =>
      simp only [perform, reduceCtorEq, exists_false, false_iff, not_and]
      exact fun accepted => absurd List.mem_cons_self (accepted problem)
    | publish publication =>
      simp only [perform, publications_publish, List.map_cons, List.cons_append]
      by_cases free : publication.id ∉ state.published.ids
      · have taken : (state.publish publication free).published.ids =
            publication.id :: state.published.ids := rfl
        simp only [dif_pos free, ih, taken, Accepted, List.mem_cons, reduceCtorEq, false_or,
          List.perm_middle.nodup_iff]
      · simp only [dif_neg free, reduceCtorEq, exists_false, false_iff, not_and]
        intro _ distinct
        exact (List.nodup_cons.mp distinct).1 (List.mem_append_right _ (not_not.mp free))

/-- Two states that hold the same: the same entries are visited, and the same items are published. -/
structure WalkState.HoldsSame (state state' : WalkState) : Prop where
  visited : ∀ id, id ∈ state.visited ↔ id ∈ state'.visited
  published : state.published.entries.Perm state'.published.entries

/-- Both sides go on, in states that hold the same, or both are broken off. -/
inductive SameEnd : Except Stop WalkState → Except Stop WalkState → Prop where
  | ok {state state' : WalkState} (same : state.HoldsSame state') :
      SameEnd (.ok state) (.ok state')
  | error {stop stop' : Stop} : SameEnd (.error stop) (.error stop')

/-- The order in which actions are carried out makes no difference. -/
theorem performAll_reordered (same : state.HoldsSame state') (perm : actions.Perm actions') :
    SameEnd (state.performAll actions) (state'.performAll actions') := by
  have ids : ((publications actions).map (·.id) ++ state.published.ids).Perm
      ((publications actions').map (·.id) ++ state'.published.ids) :=
    ((publications_perm perm).map _).append (same.published.map _)
  have ends : (∃ after, state.performAll actions = .ok after) ↔
      ∃ after', state'.performAll actions' = .ok after' := by
    rw [WalkState.performAll_isOk_iff, WalkState.performAll_isOk_iff, ids.nodup_iff]
    exact and_congr_left' ⟨accepted_of_perm perm, accepted_of_perm perm.symm⟩
  cases performed : state.performAll actions with
  | ok after =>
    obtain ⟨after', performed'⟩ := ends.mp ⟨after, performed⟩
    rw [performed']
    refine .ok ⟨fun id => ?_, ?_⟩
    · rw [WalkState.mem_visited_performAll performed, WalkState.mem_visited_performAll performed',
        same.visited, perm.mem_iff]
    · rw [WalkState.entries_performAll performed, WalkState.entries_performAll performed']
      have told := (publications_perm perm).map Publication.entry
      exact ((List.reverse_perm _).trans (told.trans (List.reverse_perm _).symm)).append
        same.published
  | error stop =>
    cases performed' : state'.performAll actions' with
    | ok after' =>
      obtain ⟨after, other⟩ := ends.mpr ⟨after', performed'⟩
      cases performed.symm.trans other
    | error stop' => exact .error

end Actions

/-! ## Walks -/

section Walks

variable {tree other : Tree} {state state' : WalkState} {pending : List Task}

theorem rootTasks_reordered {free : Bool} (same : tree.Reordered free other) :
    Rearranged free tree.rootTasks other.rootTasks := by
  have declared := declaration?_rootId tree
  have declared' := declaration?_rootId other
  rcases same.found rootId with ⟨absent, _⟩ | ⟨_, _, _, found, found', declarations⟩
  · rw [declaration?, absent] at declared
    cases declared
  · cases (declared_of_found found).symm.trans declared
    cases (declared_of_found found').symm.trans declared'
    have items : Rearranged free tree.root.items other.root.items := by
      generalize tree.root = root, other.root = root' at declarations
      cases declarations with
      | same => exact .refl _
      | module listed => exact listed
    exact items.map _

/-- Walks through the same tasks from states that hold the same end alike, if only the parts of entries
stand in another order. -/
theorem walk_reordered (same : tree.Reordered false other) (states : state.HoldsSame state') :
    SameEnd (tree.walk state pending) (other.walk state' pending) := by
  fun_induction walk tree state pending generalizing state' with
  | case1 =>
    rw [walk]
    exact .ok states
  | case2 state task pending seen ih =>
    rw [walk_drop ((states.visited _).mp seen)]
    exact ih states
  | case3 state task pending fresh stop performed =>
    have fresh' := mt (states.visited _).mpr fresh
    have step := performAll_reordered states (plan_reordered same task).actions
    rw [performed] at step
    generalize performed' : state'.performAll (other.plan task).actions = outcome at step
    cases step with
    | error => rw [walk_stop fresh' performed']; exact .error
  | case4 state task pending fresh middle performed ih =>
    have fresh' := mt (states.visited _).mpr fresh
    have step := performAll_reordered states (plan_reordered same task).actions
    rw [performed] at step
    generalize performed' : state'.performAll (other.plan task).actions = outcome at step
    cases step with
    | ok states' =>
      have next : (tree.plan task).next = (other.plan task).next := (plan_reordered same task).next
      rw [walk_answer fresh' performed', ← next]
      exact ih states'

end Walks

/-! ## Whole trees -/

/-- Two trees come to the same: both of them can be flattened or neither, and the snapshots are equal. -/
structure SameOutcome (tree other : Tree) : Prop where
  translated : (∃ s, Snapshot.ofTree? tree = .ok s) ↔ ∃ s', Snapshot.ofTree? other = .ok s'
  equal : ∀ s s', Snapshot.ofTree? tree = .ok s → Snapshot.ofTree? other = .ok s' →
    ∀ id, s.get? id = s'.get? id

theorem get?_eq_of_perm {s s' : Snapshot} (perm : s.entries.Perm s'.entries) (id : Identity) :
    s.get? id = s'.get? id := by
  refine Option.ext fun item => ?_
  rw [Snapshot.get?_eq_some_iff, Snapshot.get?_eq_some_iff, perm.mem_iff]

/-- The order of the parts of entries makes no difference. -/
theorem sameOutcome_of_reordered {tree other : Tree} (same : tree.Reordered false other) :
    tree.SameOutcome other := by
  have tasks : tree.rootTasks = other.rootTasks := rootTasks_reordered same
  have ends : SameEnd (tree.walk .start tree.rootTasks) (other.walk .start other.rootTasks) :=
    tasks ▸ walk_reordered same ⟨fun _ => Iff.rfl, .refl _⟩
  have walks : SameEnd tree.walkAll other.walkAll := ends
  generalize walked : tree.walkAll = outcome, walked' : other.walkAll = outcome' at walks
  cases walks with
  | @ok state state' states =>
    have translated : Snapshot.ofTree? tree = .ok state.published := by rw [Snapshot.ofTree?, walked]
    have translated' : Snapshot.ofTree? other = .ok state'.published := by
      rw [Snapshot.ofTree?, walked']
    refine ⟨⟨fun _ => ⟨_, translated'⟩, fun _ => ⟨_, translated⟩⟩, fun s s' found found' => ?_⟩
    cases translated.symm.trans found
    cases translated'.symm.trans found'
    exact get?_eq_of_perm states.published
  | @error stop stop' =>
    have refused : Snapshot.ofTree? tree = .error stop.problem := by rw [Snapshot.ofTree?, walked]
    have refused' : Snapshot.ofTree? other = .error stop'.problem := by
      rw [Snapshot.ofTree?, walked']
    exact ⟨by simp [refused, refused'], fun s s' found => by cases refused.symm.trans found⟩

end ApiDelta.Tree
