import ApiDelta.Proofs.SameParts

/-!
Re-exports of what is outside the crate. Such a re-export aims at a number without an entry. The walk asks
for the target by a task of its own, which it then passes over; without a target, it passes the re-export
over at once. Apart from what it tells of that, it does the same in both cases, so targets that are not
there never decide what a tree is translated to, or whether and why it is refused.
-/
namespace ApiDelta.Tree

/-! ## Trees without outside targets -/

/-- The same declaration, without a target that is not there. -/
def Declaration.dropTarget (present : Int → Bool) : Declaration → Declaration
  | .reexport decl => .reexport { decl with target := decl.target.filter present }
  | other => other

def Entry.dropTarget (present : Int → Bool) (entry : Entry) : Entry :=
  { entry with declaration := entry.declaration.dropTarget present }

def Index.dropTargets (present : Int → Bool) (index : Index) : Index :=
  index.map fun pair => (pair.1, pair.2.dropTarget present)

theorem Index.lookup_dropTargets (present : Int → Bool) (index : Index) (id : Int) :
    (index.dropTargets present).lookup id = (index.lookup id).map (Entry.dropTarget present) := by
  induction index with
  | nil => rfl
  | cons pair rest ih =>
    obtain ⟨key, entry⟩ := pair
    rw [dropTargets, List.map_cons, List.lookup_cons, List.lookup_cons]
    cases id == key with
    | true => rfl
    | false => exact ih

/-- The tree without the targets that are not there. -/
def withoutOutside (tree : Tree) : Tree where
  formatVersion := tree.formatVersion
  crateVersion := tree.crateVersion
  index := tree.index.dropTargets fun id => (tree.entry? id).isSome
  root := tree.root
  rooted := by
    obtain ⟨entry, found, declared⟩ := Option.map_eq_some_iff.mp tree.rooted
    rw [Index.lookup_dropTargets, found, Option.map_some, Option.map_some, Entry.dropTarget, declared]
    rfl

section Plans

variable {tree : Tree} {id : Int}

theorem entry?_withoutOutside (tree : Tree) (id : Int) : tree.withoutOutside.entry? id =
    (tree.entry? id).map (Entry.dropTarget fun id => (tree.entry? id).isSome) :=
  tree.index.lookup_dropTargets _ id

/-- No search for a part looks at targets. -/
theorem sameParts_withoutOutside (tree : Tree) : tree.SameParts tree.withoutOutside := by
  intro owner reference _
  have kept := entry?_withoutOutside tree reference.id
  cases found : tree.entry? reference.id with
  | none => exact samePart_of_same (by rw [kept, found, Option.map_none])
  | some entry =>
    obtain ⟨deprecated, declaration⟩ := entry
    rw [found, Option.map_some] at kept
    cases declaration with
    | reexport => exact samePart_of_whole found kept trivial trivial rfl
    | _ => exact samePart_of_same (kept.trans found.symm)

theorem Declaration.dropTarget_cases (present : Int → Bool) (declaration : Declaration) :
    declaration.dropTarget present = declaration ∨
      ∃ decl target, declaration = .reexport decl ∧ decl.target = some target ∧
        present target = false ∧
        declaration.dropTarget present = .reexport { decl with target := none } := by
  cases declaration with
  | reexport decl =>
    obtain ⟨name, source, target, glob⟩ := decl
    cases target with
    | none => exact .inl rfl
    | some target =>
      cases there : present target with
      | true => exact .inl (by simp [dropTarget, there])
      | false => exact .inr ⟨_, target, rfl, rfl, there, by simp [dropTarget, there]⟩
  | _ => exact .inl rfl

/-- A task that is passed over, with nothing to visit, to publish or to follow. -/
def PassesOver (tree : Tree) (task : Task) : Prop :=
  ∃ skipped, tree.plan task = { actions := [.skip skipped] }

/-- The plan of a task is the same without the targets that are not there, unless the task is for a
re-export with such a target. Then that is passed over at once, and not by a task of its own. -/
theorem plan_withoutOutside (task : Task) :
    tree.withoutOutside.plan task = tree.plan task ∨
      ∃ outside skipped, tree.PassesOver outside ∧
        tree.plan task = { actions := [.visit task.id], next := [outside] } ∧
        tree.withoutOutside.plan task = { actions := [.visit task.id, .skip skipped] } := by
  obtain ⟨id, path, via⟩ := task
  have kept := entry?_withoutOutside tree id
  cases found : tree.entry? id with
  | none =>
    rw [found, Option.map_none] at kept
    left
    cases via <;> simp only [plan, found, kept]
  | some entry =>
    obtain ⟨deprecated, declaration⟩ := entry
    rw [found, Option.map_some, Entry.dropTarget] at kept
    rcases declaration.dropTarget_cases fun id => (tree.entry? id).isSome with
      same | ⟨decl, target, rfl, aims, absent, dropped⟩
    · rw [same] at kept
      exact .inl (plan_eq (sameParts_withoutOutside tree) (kept.trans found.symm))
    · rw [dropped] at kept
      have passed : ∀ path, tree.PassesOver ⟨target, path, if decl.glob then .spliced decl.source
          else .named id decl.name decl.source⟩ := by
        intro path
        have nowhere : tree.entry? target = none := by simpa using absent
        refine ⟨.outside decl.source, ?_⟩
        cases decl.glob <;> simp only [plan, nowhere, if_true, Bool.false_eq_true, if_false]
      cases via with
      | listed | named =>
        refine .inr ⟨_, .outside decl.source, passed path, ?_, ?_⟩
        · simp only [plan, found, itemPlan, reexportPlan, aims]
        · simp only [plan, kept, itemPlan, reexportPlan]
      | spliced | attached => exact .inl (by simp only [plan, found, kept, Declaration.kind])

end Plans

/-! ## Walks -/

/-- Two states differ at most in what was passed over. -/
structure WalkState.Alike (state state' : WalkState) : Prop where
  visited : state'.visited = state.visited
  published : state'.published = state.published

/-- Both sides go on, in states that are alike, or both are broken off by one problem. -/
inductive EndAlike : Except Stop WalkState → Except Stop WalkState → Prop where
  | ok {state state' : WalkState} (alike : state.Alike state') : EndAlike (.ok state) (.ok state')
  | error {stop stop' : Stop} (same : stop'.problem = stop.problem) :
      EndAlike (.error stop) (.error stop')

/-- The second tasks are the first without some that are passed over. -/
inductive Thinned (tree : Tree) : List Task → List Task → Prop where
  | nil : Thinned tree [] []
  | keep {task : Task} {pending pending' : List Task} (rest : Thinned tree pending pending') :
      Thinned tree (task :: pending) (task :: pending')
  | pass {task : Task} {pending pending' : List Task} (passed : tree.PassesOver task)
      (rest : Thinned tree pending pending') : Thinned tree (task :: pending) pending'

section Walks

variable {tree : Tree} {state state' : WalkState} {pending pending' : List Task}

theorem Thinned.same (tasks : List Task) (rest : tree.Thinned pending pending') :
    tree.Thinned (tasks ++ pending) (tasks ++ pending') := by
  induction tasks with
  | nil => exact rest
  | cons _ _ ih => exact .keep ih

theorem Thinned.refl (tasks : List Task) : tree.Thinned tasks tasks := by
  have same : tree.Thinned (tasks ++ []) (tasks ++ []) := .same tasks .nil
  rwa [List.append_nil] at same

theorem WalkState.Alike.visit (alike : state.Alike state') (id : Int) :
    (state.visit id).Alike (state'.visit id) := by
  unfold WalkState.visit
  rw [alike.visited]
  split
  · exact alike
  · exact ⟨rfl, alike.published⟩

theorem WalkState.Alike.perform (alike : state.Alike state') (action : Action) :
    EndAlike (state.perform action) (state'.perform action) := by
  cases action with
  | visit id => exact .ok (alike.visit id)
  | skip skipped => exact .ok ⟨alike.visited, alike.published⟩
  | refuse problem => exact .error rfl
  | publish publication =>
    obtain ⟨visited, published, skipped⟩ := state
    obtain ⟨visited', published', skipped'⟩ := state'
    cases alike.visited
    cases alike.published
    simp only [WalkState.perform]
    by_cases free : publication.id ∉ published.ids
    · rw [dif_pos free, dif_pos free]
      exact .ok ⟨rfl, rfl⟩
    · rw [dif_neg free, dif_neg free]
      exact .error rfl

theorem WalkState.Alike.performAll (alike : state.Alike state') (actions : List Action) :
    EndAlike (state.performAll actions) (state'.performAll actions) := by
  induction actions generalizing state state' with
  | nil => exact .ok alike
  | cons action rest ih =>
    have step := alike.perform action
    simp only [WalkState.performAll]
    generalize state.perform action = outcome, state'.perform action = outcome' at step
    cases step with
    | ok alike => exact ih alike
    | error same => exact .error same

/-- Walks from states that are alike, through the same tasks but some that are passed over, end alike. -/
theorem walk_withoutOutside (alike : state.Alike state') (thinned : tree.Thinned pending pending') :
    EndAlike (tree.walk state pending) (tree.withoutOutside.walk state' pending') := by
  fun_induction walk tree state pending generalizing state' pending' with
  | case1 state =>
    cases thinned
    rw [walk]
    exact .ok alike
  | case2 state task pending seen ih =>
    cases thinned with
    | keep rest =>
      have seen' : task.id ∈ state'.visited := alike.visited ▸ seen
      rw [walk_drop seen']
      exact ih alike rest
    | pass _ rest => exact ih alike rest
  | case3 state task pending fresh stop performed =>
    cases thinned with
    | pass passed rest =>
      obtain ⟨skipped, same⟩ := passed
      rw [same] at performed
      cases performed
    | @keep _ _ pending' rest =>
      have fresh' : task.id ∉ state'.visited := alike.visited ▸ fresh
      rcases plan_withoutOutside task with same | ⟨outside, skipped, _, same, _⟩
      · have ends := alike.performAll (tree.plan task).actions
        rw [performed] at ends
        generalize performed' : state'.performAll (tree.plan task).actions = outcome' at ends
        cases ends with
        | error problem =>
          rw [walk_stop fresh' (by rw [same, performed'])]
          exact .error problem
      · rw [same] at performed
        cases performed
  | case4 state task pending fresh middle performed ih =>
    cases thinned with
    | pass passed rest =>
      obtain ⟨skipped, same⟩ := passed
      rw [same] at performed ih ⊢
      cases performed
      exact ih ⟨alike.visited, alike.published⟩ rest
    | @keep _ _ pending' rest =>
      have fresh' : task.id ∉ state'.visited := alike.visited ▸ fresh
      rcases plan_withoutOutside task with same | ⟨outside, skipped, passed, same, same'⟩
      · have ends := alike.performAll (tree.plan task).actions
        rw [performed] at ends
        generalize performed' : state'.performAll (tree.plan task).actions = outcome' at ends
        cases ends with
        | ok alike =>
          rw [walk_answer fresh' (by rw [same, performed']), same]
          exact ih alike (rest.same _)
      · -- the target is passed over by a task in one tree, and with the re-export in the other
        rw [same] at performed ih ⊢
        cases performed
        have performed' : state'.performAll (tree.withoutOutside.plan task).actions =
            .ok { state'.visit task.id with skipped := skipped :: (state'.visit task.id).skipped } := by
          rw [same']
          rfl
        rw [walk_answer fresh' performed', same']
        have visited := alike.visit task.id
        exact ih ⟨visited.visited, visited.published⟩ (.pass passed rest)

end Walks

/-! ## Whole trees -/

/-- Targets that are not there make no difference. -/
theorem ofTree?_withoutOutside (tree : Tree) :
    Snapshot.ofTree? tree.withoutOutside = Snapshot.ofTree? tree := by
  have ends : EndAlike tree.walkAll tree.withoutOutside.walkAll :=
    walk_withoutOutside ⟨rfl, rfl⟩ (.refl _)
  unfold Snapshot.ofTree?
  generalize tree.walkAll = outcome, tree.withoutOutside.walkAll = outcome' at ends
  cases ends with
  | ok alike => exact congrArg Except.ok alike.published
  | error same => exact congrArg Except.error same

end ApiDelta.Tree
