import ApiDelta.Proofs.LeafInsertions
import ApiDelta.Proofs.SoleReferences

/-!
Re-exports of whole modules. A re-export of everything in a module stands for the items of the module: if
nothing else leads to the two, the items can be put into the list in its place. The walk over the tree
with the re-export takes two steps more, one for the re-export and one for the module, and the other walk
waits for it. From then on both ask for the same items under the same path, and since no task asks for
the re-export or the module again, it makes no difference that only one walk has visited them.
-/
namespace ApiDelta.Tree

/-! ## Tasks and problems that differ in the referrer -/

/-- Tasks that ask for the same in the same way. Which module lists the entry may differ. -/
inductive Task.Likewise : Task → Task → Prop where
  | same (task : Task) : Likewise task task
  | listed {id : Int} {path : List String} {referrer referrer' : Int} :
      Likewise ⟨id, path, .listed referrer⟩ ⟨id, path, .listed referrer'⟩

/-- Problems with one code and one entry at fault. -/
structure Problem.Alike (problem other : Problem) : Prop where
  code : other.code = problem.code
  itemId : other.itemId = problem.itemId

section Likewise

variable {tree : Tree} {task task' : Task}

theorem Task.Likewise.id_eq (like : task.Likewise task') : task'.id = task.id := by
  cases like <;> rfl

/-- Tasks that ask for the same are planned alike, unless both are refused for an entry that is missing. -/
theorem plan_of_likewise (like : task.Likewise task') :
    tree.plan task' = tree.plan task ∨ ∃ problem problem' : Problem, problem.Alike problem' ∧
      tree.plan task = { actions := [.refuse problem] } ∧
      tree.plan task' = { actions := [.refuse problem'] } := by
  cases like with
  | same => exact .inl rfl
  | @listed id path referrer referrer' =>
    cases found : tree.entry? id with
    | none =>
      have missing (referrer : Int) : tree.plan ⟨id, path, .listed referrer⟩ =
          { actions := [.refuse (.dangling id referrer)] } := by simp only [plan, found]
      exact .inr ⟨.dangling id referrer, .dangling id referrer', ⟨rfl, rfl⟩, missing referrer,
        missing referrer'⟩
    | some entry => exact .inl (by simp only [plan, found])

end Likewise

/-! ## Splices -/

/-- A re-export of everything in a module, which stands once in the list of a module, after some items
and before others. Nothing else leads to it, and nothing but it leads to the module that it splices in. -/
structure Splice (tree : Tree) where
  host : Int
  deprecated : Bool
  decl : ModuleDecl
  before : List Int
  after : List Int
  number : Int
  reexport : ReexportDecl
  target : Int
  inner : ModuleDecl
  hosted : tree.entry? host = some ⟨deprecated, .module decl⟩
  split : decl.items = before ++ number :: after
  once : number ∉ before ∧ number ∉ after
  exported : tree.declaration? number = some (.reexport reexport)
  whole : reexport.glob = true
  aims : reexport.target = some target
  holds : tree.declaration? target = some (.module inner)
  noRoot : target ≠ rootId
  listed : ∀ owner, ∀ reference ∈ tree.references owner, reference.id = number → owner = host
  aimed : ∀ owner, ∀ reference ∈ tree.references owner, reference.id = target → owner = number

namespace Splice

variable {tree other : Tree} (splice : tree.Splice)

/-- The declaration of the module with the items in the place of the re-export. -/
def hostDecl : ModuleDecl :=
  { splice.decl with items := splice.before ++ splice.inner.items ++ splice.after }

/-- What a number leads to when the items are in the place of the re-export. -/
def entry? (id : Int) : Option Entry :=
  if id = splice.host then some ⟨splice.deprecated, .module splice.hostDecl⟩ else tree.entry? id

/-- The second tree is the first with the items in the place of the re-export, wherever its index holds
the entries. -/
def Makes (other : Tree) : Prop :=
  ∀ id, other.entry? id = splice.entry? id

/-- An entry that is neither the re-export nor the module that it splices in. -/
def Spares (id : Int) : Prop :=
  id ≠ splice.number ∧ id ≠ splice.target

/-! ### What leads to the re-export and to its module -/

section References

theorem host_declared : tree.declaration? splice.host = some (.module splice.decl) :=
  declared_of_found splice.hosted

theorem ne_number_of_module {id : Int} {decl : ModuleDecl}
    (declared : tree.declaration? id = some (.module decl)) : id ≠ splice.number := by
  rintro rfl
  cases declared.symm.trans splice.exported

theorem sought_number :
    tree.sought splice.number = [⟨splice.number, .contents, splice.target⟩] := by
  simp [sought, splice.exported, splice.whole, splice.aims, Role.references]

theorem sole_number : tree.Sole splice.host splice.number where
  inner := (splice.ne_number_of_module tree.declaration?_rootId).symm
  whole := by
    rintro ⟨declaration, declared, isPart⟩
    cases splice.exported.symm.trans declared
    exact isPart
  only := splice.listed
  once := by
    obtain ⟨before, after⟩ := splice.once
    simp [sought, splice.host_declared, Role.references, splice.split, Function.comp_def,
      List.count_eq_zero.mpr before, List.count_eq_zero.mpr after]

theorem sole_target : tree.Sole splice.number splice.target where
  inner := splice.noRoot
  whole := by
    rintro ⟨declaration, declared, isPart⟩
    cases splice.holds.symm.trans declared
    exact isPart
  only := splice.aimed
  once := by simp [sought_number]

/-- What an entry seeks is neither the re-export nor its module, unless the entry leads to them. -/
theorem spares_of_sought {id : Int} {reference : Reference} (sought : reference ∈ tree.sought id)
    (noHost : id ≠ splice.host) (noReexport : id ≠ splice.number) : splice.Spares reference.id := by
  have refers := List.mem_append_right (tree.held id) sought
  exact ⟨fun same => noHost (splice.listed id reference refers same),
    fun same => noReexport (splice.aimed id reference refers same)⟩

theorem sought_of_item {id item : Int} {decl : ModuleDecl}
    (declared : tree.declaration? id = some (.module decl)) (member : item ∈ decl.items) :
    ⟨id, .item, item⟩ ∈ tree.sought id := by
  simp only [sought, declared]
  exact Role.mem_references.mpr ⟨item, member, rfl⟩

/-- The items are neither the re-export nor its module, unless the module lists the re-export itself. -/
theorem spares_of_inner (apart : splice.target ≠ splice.host) :
    ∀ item ∈ splice.inner.items, splice.Spares item := fun _ member =>
  splice.spares_of_sought (sought_of_item splice.holds member) apart
    (splice.ne_number_of_module splice.holds)

/-- The other items of the list are neither the re-export nor its module. -/
theorem spares_of_listed {item : Int} (member : item ∈ splice.before ∨ item ∈ splice.after) :
    splice.Spares item := by
  constructor
  · rintro rfl
    exact member.elim splice.once.1 splice.once.2
  · intro same
    have inside : item ∈ splice.decl.items := by
      simp only [splice.split, List.mem_append, List.mem_cons]
      tauto
    have refers := List.mem_append_right (tree.held splice.host)
      (sought_of_item splice.host_declared inside)
    exact splice.ne_number_of_module splice.host_declared (splice.aimed _ _ refers same)

end References

/-! ### Pending tasks -/

/-- Two lists of tasks that ask for the same, save that the first asks for the re-export, or then for all
of its module, where the second asks for the items. -/
inductive Unfolds : List Task → List Task → Prop where
  | nil : Unfolds [] []
  | keep {task task' : Task} {pending pending' : List Task} (spared : splice.Spares task.id)
      (like : task.Likewise task') (rest : Unfolds pending pending') :
      Unfolds (task :: pending) (task' :: pending')
  | reexport {path : List String} {referrer : Int} {pending pending' : List Task}
      (rest : Unfolds pending pending') :
      Unfolds (⟨splice.number, path, .listed referrer⟩ :: pending)
        (listedTasks path splice.host splice.inner.items ++ pending')
  | contents {path : List String} {source : String} {pending pending' : List Task}
      (rest : Unfolds pending pending') :
      Unfolds (⟨splice.target, path, .spliced source⟩ :: pending)
        (listedTasks path splice.host splice.inner.items ++ pending')

section Unfolding

variable {splice} {pending pending' : List Task} {path : List String} {referrer referrer' : Int}
  {ids : List Int}

/-- Further tasks that ask for neither the re-export nor its module can be put before. -/
theorem Unfolds.same {tasks : List Task} (spared : ∀ task ∈ tasks, splice.Spares task.id)
    (rest : splice.Unfolds pending pending') : splice.Unfolds (tasks ++ pending) (tasks ++ pending') := by
  induction tasks with
  | nil => exact rest
  | cons task tasks ih =>
    obtain ⟨here, later⟩ := List.forall_mem_cons.mp spared
    exact .keep here (.same task) (ih later)

theorem Unfolds.listed (spared : ∀ id ∈ ids, splice.Spares id)
    (rest : splice.Unfolds pending pending') :
    splice.Unfolds (listedTasks path referrer ids ++ pending)
      (listedTasks path referrer' ids ++ pending') := by
  induction ids with
  | nil => exact rest
  | cons id ids ih =>
    obtain ⟨here, later⟩ := List.forall_mem_cons.mp spared
    exact .keep here .listed (ih later)

/-- The list with the re-export unfolds into the list with the items. -/
theorem unfolds_host (path : List String) (rest : splice.Unfolds pending pending') :
    splice.Unfolds (listedTasks path splice.host splice.decl.items ++ pending)
      (listedTasks path splice.host splice.hostDecl.items ++ pending') := by
  have shape : listedTasks path splice.host splice.decl.items ++ pending =
      listedTasks path splice.host splice.before ++ ⟨splice.number, path, .listed splice.host⟩ ::
        (listedTasks path splice.host splice.after ++ pending) := by
    simp [listedTasks, splice.split]
  have shape' : listedTasks path splice.host splice.hostDecl.items ++ pending' =
      listedTasks path splice.host splice.before ++
        (listedTasks path splice.host splice.inner.items ++
          (listedTasks path splice.host splice.after ++ pending')) := by
    simp [listedTasks, hostDecl]
  rw [shape, shape']
  have behind : splice.Unfolds (listedTasks path splice.host splice.after ++ pending)
      (listedTasks path splice.host splice.after ++ pending') :=
    .listed (fun _ member => splice.spares_of_listed (.inr member)) rest
  exact .listed (fun _ member => splice.spares_of_listed (.inl member)) (.reexport behind)

end Unfolding

/-! ### Plans -/

namespace Makes

variable {splice} (makes : splice.Makes other)

include makes

theorem found_host :
    other.entry? splice.host = some ⟨splice.deprecated, .module splice.hostDecl⟩ := by
  rw [makes, Splice.entry?, if_pos rfl]

theorem found_other {id : Int} (noHost : id ≠ splice.host) : other.entry? id = tree.entry? id := by
  rw [makes, Splice.entry?, if_neg noHost]

/-- No search for a part tells the trees apart: the module is no part. -/
theorem sameParts : tree.SameParts other := by
  intro owner reference _
  by_cases isHost : reference.id = splice.host
  · rw [isHost]
    exact samePart_of_whole splice.hosted makes.found_host trivial trivial rfl
  · exact samePart_of_same (makes.found_other isHost)

theorem plan_eq {task : Task} (noHost : task.id ≠ splice.host) : other.plan task = tree.plan task :=
  Tree.plan_eq makes.sameParts (makes.found_other noHost)

/-- A task does the same in both trees, and asks for the same up to the re-export. -/
theorem plan_unfolds {task : Task} (spared : splice.Spares task.id) :
    (other.plan task).actions = (tree.plan task).actions ∧
      (Accepted (tree.plan task).actions → ∀ {pending pending' : List Task},
        splice.Unfolds pending pending' →
          splice.Unfolds ((tree.plan task).next ++ pending) ((other.plan task).next ++ pending')) := by
  by_cases isHost : task.id = splice.host
  · have found : tree.entry? task.id = some ⟨_, .module splice.decl⟩ := isHost ▸ splice.hosted
    have found' : other.entry? task.id = some ⟨_, .module splice.hostDecl⟩ := isHost ▸ makes.found_host
    constructor
    · obtain ⟨id, path, via⟩ := task
      cases via with
      | listed | named | spliced => simp only [plan, found, found', itemPlan]
      | attached => simp only [plan, found, found', Declaration.kind]
    · intro accepted pending pending' rest
      have direct := direct_of_accepted found accepted
      have samePath : task.itemsPath splice.hostDecl = task.itemsPath splice.decl := rfl
      rw [plan_of_module found direct, plan_of_module found' direct, samePath, isHost]
      exact unfolds_host _ rest
  · rw [makes.plan_eq isHost]
    refine ⟨rfl, fun accepted pending pending' rest => .same (fun next asked => ?_) rest⟩
    obtain ⟨reference, sought, stems⟩ := stems_of_next accepted asked
    exact stems.id_eq ▸ splice.spares_of_sought sought isHost spared.1

/-- So do tasks that differ in who lists the entry, unless both are refused for an entry that is missing. -/
theorem plan_cases {task task' : Task} (spared : splice.Spares task.id)
    (like : task.Likewise task') :
    ((other.plan task').actions = (tree.plan task).actions ∧
      (Accepted (tree.plan task).actions → ∀ {pending pending' : List Task},
        splice.Unfolds pending pending' →
          splice.Unfolds ((tree.plan task).next ++ pending) ((other.plan task').next ++ pending'))) ∨
    ∃ problem problem' : Problem, problem.Alike problem' ∧
      (tree.plan task).actions = [.refuse problem] ∧ (other.plan task').actions = [.refuse problem'] := by
  have spared' : splice.Spares task'.id := like.id_eq ▸ spared
  have unfolds := makes.plan_unfolds spared'
  rcases @plan_of_likewise tree task task' like with same | ⟨problem, problem', alike, refused, refused'⟩
  · exact .inl (same ▸ unfolds)
  · exact .inr ⟨problem, problem', alike, by rw [refused], by rw [unfolds.1, refused']⟩

end Makes

/-! ### Walks -/

/-- Two states differ at most in what was passed over, and in visits to the re-export and its module. -/
structure Beside (state state' : WalkState) : Prop where
  visited : ∀ id, splice.Spares id → (id ∈ state'.visited ↔ id ∈ state.visited)
  published : state'.published = state.published

/-- Both sides go on, in states that are beside each other, or both are broken off by problems with one
code and one entry at fault. -/
inductive EndsAlike : Except Stop WalkState → Except Stop WalkState → Prop where
  | ok {state state' : WalkState} (beside : splice.Beside state state') :
      EndsAlike (.ok state) (.ok state')
  | error {stop stop' : Stop} (alike : stop.problem.Alike stop'.problem) :
      EndsAlike (.error stop) (.error stop')

section Walks

variable {splice} {state state' : WalkState} {pending pending' : List Task}

theorem Beside.visit (beside : splice.Beside state state') (id : Int) :
    splice.Beside (state.visit id) (state'.visit id) where
  visited := by
    intro other spared
    rw [WalkState.mem_visited_visit, WalkState.mem_visited_visit, beside.visited other spared]
  published := by
    unfold WalkState.visit
    split <;> split <;> exact beside.published

/-- A visit to the re-export or to its module is no step aside. -/
theorem Beside.pass (beside : splice.Beside state state') {id : Int} (unspared : ¬splice.Spares id) :
    splice.Beside (state.visit id) state' where
  visited := by
    intro other spared
    have apart : other ≠ id := fun same => unspared (same ▸ spared)
    rw [WalkState.mem_visited_visit, or_iff_right apart, beside.visited other spared]
  published := by
    unfold WalkState.visit
    split <;> exact beside.published

theorem Beside.perform (beside : splice.Beside state state') (action : Action) :
    splice.EndsAlike (state.perform action) (state'.perform action) := by
  cases action with
  | visit id => exact .ok (beside.visit id)
  | skip skipped => exact .ok ⟨beside.visited, beside.published⟩
  | refuse problem => exact .error ⟨rfl, rfl⟩
  | publish publication =>
    obtain ⟨visited, published, skipped⟩ := state
    obtain ⟨visited', published', skipped'⟩ := state'
    cases beside.published
    simp only [WalkState.perform]
    by_cases free : publication.id ∉ published.ids
    · rw [dif_pos free, dif_pos free]
      exact .ok ⟨beside.visited, rfl⟩
    · rw [dif_neg free, dif_neg free]
      exact .error ⟨rfl, rfl⟩

theorem Beside.performAll (beside : splice.Beside state state') (actions : List Action) :
    splice.EndsAlike (state.performAll actions) (state'.performAll actions) := by
  induction actions generalizing state state' with
  | nil => exact .ok beside
  | cons action rest ih =>
    have step := beside.perform action
    simp only [WalkState.performAll]
    generalize state.perform action = outcome, state'.perform action = outcome' at step
    cases step with
    | ok beside => exact ih beside
    | error alike => exact .error alike

theorem plan_number (path : List String) (referrer : Int) :
    tree.plan ⟨splice.number, path, .listed referrer⟩ =
      { actions := [.visit splice.number]
        next := [⟨splice.target, path, .spliced splice.reexport.source⟩] } := by
  have inModule : (Task.mk splice.number path (.listed referrer)).InModule := trivial
  have plan := plan_of_reexport inModule splice.exported
  simp only [plan, reexportPlan, splice.aims, splice.whole, if_true]

theorem plan_target (path : List String) (source : String) :
    tree.plan ⟨splice.target, path, .spliced source⟩ =
      { actions := [.visit splice.target]
        next := listedTasks path splice.target splice.inner.items } := by
  obtain ⟨⟨_, _⟩, found, rfl⟩ := Option.map_eq_some_iff.mp splice.holds
  simp only [plan, found]

/-- The walks through lists that unfold end alike. The one with the re-export takes the steps for it and
for its module alone, and each of them once: while a task asks for it, it has not been visited. -/
theorem walk_unfolds (makes : splice.Makes other) (stage : tree.Stage state pending)
    (beside : splice.Beside state state') (unfolds : splice.Unfolds pending pending') :
    splice.EndsAlike (tree.walk state pending) (other.walk state' pending') := by
  fun_induction walk tree state pending generalizing state' pending' with
  | case1 state =>
    cases unfolds
    rw [walk]
    exact .ok beside
  | case2 state task pending seen ih =>
    cases unfolds with
    | @keep _ task' _ pending' spared like rest =>
      have seen' : task'.id ∈ state'.visited := by
        rw [like.id_eq, beside.visited _ spared]
        exact seen
      rw [walk_drop seen']
      exact ih (stage.drop seen) beside rest
    | reexport => exact absurd seen (splice.sole_number.pending_of_asked stage rfl).2
    | contents => exact absurd seen (splice.sole_target.pending_of_asked stage rfl).2
  | case3 state task pending fresh stop performed =>
    cases unfolds with
    | @keep _ task' _ pending' spared like rest =>
      have fresh' : task'.id ∉ state'.visited := by
        rw [like.id_eq, beside.visited _ spared]
        exact fresh
      rcases makes.plan_cases spared like with ⟨same, _⟩ | ⟨problem, problem', alike, refused, refused'⟩
      · have ends := beside.performAll (tree.plan task).actions
        rw [performed] at ends
        generalize performed' : state'.performAll (tree.plan task).actions = outcome' at ends
        cases ends with
        | error alike =>
          rw [walk_stop fresh' (by rw [same, performed'])]
          exact .error alike
      · rw [refused] at performed
        cases performed
        rw [walk_stop fresh' (by rw [refused']; rfl)]
        exact .error alike
    | reexport =>
      rw [plan_number] at performed
      cases performed
    | contents =>
      rw [plan_target] at performed
      cases performed
  | case4 state task pending fresh middle performed ih =>
    have reached := stage.answer fresh performed
    cases unfolds with
    | @keep _ task' _ pending' spared like rest =>
      have fresh' : task'.id ∉ state'.visited := by
        rw [like.id_eq, beside.visited _ spared]
        exact fresh
      rcases makes.plan_cases spared like with ⟨same, next⟩ | ⟨problem, problem', _, refused, _⟩
      · have ends := beside.performAll (tree.plan task).actions
        rw [performed] at ends
        generalize performed' : state'.performAll (tree.plan task).actions = outcome' at ends
        cases ends with
        | ok beside =>
          rw [walk_answer fresh' (by rw [same, performed'])]
          exact ih reached beside (next (WalkState.accepted_of_performAll performed) rest)
      · rw [refused] at performed
        cases performed
    | reexport rest =>
      rw [plan_number] at performed reached ih ⊢
      cases performed
      exact ih reached (beside.pass fun spared => spared.1 rfl) (.contents rest)
    | contents rest =>
      -- The list with the re-export has been gone through, so it is not the one that is spliced in.
      obtain ⟨seen, unmet⟩ := splice.sole_target.pending_of_asked stage rfl
      have apart : splice.target ≠ splice.host := fun same =>
        unmet (same ▸ splice.sole_number.owner_visited stage seen)
      rw [plan_target] at performed reached ih ⊢
      cases performed
      exact ih reached (beside.pass fun spared => spared.2 rfl)
        (.listed (splice.spares_of_inner apart) rest)

end Walks

/-! ### Whole trees -/

section Trees

variable {splice}

theorem unfolds_rootTasks (makes : splice.Makes other) :
    splice.Unfolds tree.rootTasks other.rootTasks := by
  by_cases isRoot : splice.host = rootId
  · have root : tree.root = splice.decl := root_of_declared (isRoot ▸ splice.host_declared)
    have root' : other.root = splice.hostDecl :=
      root_of_declared (isRoot ▸ declared_of_found makes.found_host)
    have unfolds := splice.unfolds_host [] .nil
    simpa only [rootTasks, root, root', isRoot, List.append_nil] using unfolds
  · have kept := makes.found_other (Ne.symm isRoot)
    have root' : other.root = tree.root := root_of_declared (by
      rw [declaration?, kept]
      exact tree.rooted)
    have spared : ∀ task ∈ tree.rootTasks, splice.Spares task.id := by
      intro task asked
      obtain ⟨reference, sought, stems⟩ := stems_of_root asked
      exact stems.id_eq ▸ splice.spares_of_sought sought (Ne.symm isRoot)
        (splice.ne_number_of_module tree.declaration?_rootId)
    have unfolds := Unfolds.same spared .nil
    rw [List.append_nil] at unfolds
    rwa [rootTasks, rootTasks, root']

theorem walkAll_endsAlike (makes : splice.Makes other) :
    splice.EndsAlike tree.walkAll other.walkAll :=
  walk_unfolds makes .start ⟨fun _ _ => Iff.rfl, rfl⟩ (unfolds_rootTasks makes)

end Trees

/-! ### The tree with the items in the place of the re-export -/

theorem lookup_map_index (id : Int) :
    (tree.index.map fun pair => if pair.1 = splice.host then
      (pair.1, ⟨splice.deprecated, .module splice.hostDecl⟩) else pair).lookup id =
        splice.entry? id := by
  have hosted : tree.index.lookup splice.host = _ := splice.hosted
  rw [Insertion.lookup_replace, entry?]
  by_cases isHost : id = splice.host
  · simp only [isHost, if_true, hosted, Option.map_some]
  · simp only [if_neg isHost, Tree.entry?]

/-- A tree with the items in the place of the re-export. -/
def result (splice : tree.Splice) : Tree where
  formatVersion := tree.formatVersion
  crateVersion := tree.crateVersion
  index := tree.index.map fun pair => if pair.1 = splice.host then
    (pair.1, ⟨splice.deprecated, .module splice.hostDecl⟩) else pair
  root := if splice.host = rootId then splice.hostDecl else tree.root
  rooted := by
    rw [lookup_map_index, entry?]
    by_cases isHost : splice.host = rootId
    · simp only [isHost, if_true, Option.map_some]
    · rw [if_neg (Ne.symm isHost), if_neg isHost]
      exact tree.rooted

theorem makes_result (splice : tree.Splice) : splice.Makes splice.result :=
  splice.lookup_map_index

end Splice

/-- **A re-export of everything is a splice.** Where a re-export of everything in a module stands once in
the list of a module, and nothing else leads to it or to the module that it splices in, the items of that
module can be put into the list in its place: the tree has the same snapshot as before, or it is refused
with the same code and for the same entry. -/
theorem glob_reexport_is_splice {tree other : Tree} (splice : tree.Splice)
    (makes : splice.Makes other) :
    (∀ s, Snapshot.ofTree? other = .ok s ↔ Snapshot.ofTree? tree = .ok s) ∧
      ∀ problem, Snapshot.ofTree? tree = .error problem →
        ∃ told, Snapshot.ofTree? other = .error told ∧
          told.code = problem.code ∧ told.itemId = problem.itemId := by
  have ends := splice.walkAll_endsAlike makes
  unfold Snapshot.ofTree?
  generalize tree.walkAll = outcome, other.walkAll = outcome' at ends
  cases ends with
  | ok beside =>
    refine ⟨fun s => ?_, nofun⟩
    simp only [beside.published]
  | error alike =>
    refine ⟨fun s => ⟨nofun, nofun⟩, ?_⟩
    rintro _ ⟨⟩
    exact ⟨_, rfl, alike.code, alike.itemId⟩

/-- A root that re-exports everything in a module before it lists a constant. -/
def preludeTree (items : List Int) : Tree where
  index := [
    (0, { declaration := .module { name := "lib", items := [1, 4] } }),
    (1, { declaration :=
      .reexport { name := "*", source := "self::prelude", target := some 2, glob := true } }),
    (2, { declaration := .module { name := "prelude", items := items } }),
    (3, { declaration := .typedef { name := "Word", type := "u16" } }),
    (4, { declaration := .constant { name := "LIMIT", type := "Word" } })]
  root := { name := "lib", items := [1, 4] }
  rooted := rfl

/-- The items of the module go into the list of the root. -/
def preludeSplice (items : List Int)
    (alone : ∀ pair ∈ (preludeTree items).index, ∀ reference ∈ (preludeTree items).references pair.1,
      (reference.id = 1 → pair.1 = 0) ∧ (reference.id = 2 → pair.1 = 1)) :
    (preludeTree items).Splice where
  host := 0
  deprecated := false
  decl := { name := "lib", items := [1, 4] }
  before := []
  after := [4]
  number := 1
  reexport := { name := "*", source := "self::prelude", target := some 2, glob := true }
  target := 2
  inner := { name := "prelude", items := items }
  hosted := rfl
  split := rfl
  once := by simp
  exported := rfl
  whole := rfl
  aims := rfl
  holds := rfl
  noRoot := by simp [rootId]
  listed := by
    intro owner reference refers
    obtain ⟨entry, member⟩ := mem_index_of_references refers
    exact (alone _ member reference refers).1
  aimed := by
    intro owner reference refers
    obtain ⟨entry, member⟩ := mem_index_of_references refers
    exact (alone _ member reference refers).2

/-- With the alias and the constant in the module, the snapshot is the same without the re-export. A
number that leads nowhere is told with the module as its referrer before, and with the root after. -/
theorem glob_reexport_is_splice_prelude :
    (∃ s, Snapshot.ofTree? (preludeTree [3, 4]) = .ok s ∧
      Snapshot.ofTree? (preludeSplice [3, 4] (by decide)).result = .ok s) ∧
    Snapshot.ofTree? (preludeTree [9]) = .error (.dangling 9 2) ∧
      ∃ told, Snapshot.ofTree? (preludeSplice [9] (by decide)).result = .error told ∧
        told.code = .danglingReference ∧ told.itemId = some 9 := by
  constructor
  · obtain ⟨answered, final, run⟩ : ∃ answered final,
        Run (preludeTree [3, 4]) .start (preludeTree [3, 4]).rootTasks answered final :=
      ⟨_, _, .answer (by decide) rfl (.answer (by decide) rfl (.answer (by decide) rfl
        (.answer (by decide) rfl (.drop (by decide) .done))))⟩
    have translated := ofTree?_eq_ok_iff.mpr ⟨answered, final, run, rfl⟩
    exact ⟨_, translated, ((glob_reexport_is_splice _ (Splice.makes_result _)).1 _).mpr translated⟩
  · have refused : Snapshot.ofTree? (preludeTree [9]) = .error (.dangling 9 2) := by
      have stopped : ∃ stop, (preludeTree [9]).walkAll = .error stop ∧ stop.problem = .dangling 9 2 :=
        ⟨_, (walk_answer (by decide) rfl).trans ((walk_answer (by decide) rfl).trans
          (walk_stop (by decide) rfl)), rfl⟩
      exact ofTree?_eq_error_iff.mpr stopped
    obtain ⟨told, broken, code, itemId⟩ :=
      (glob_reexport_is_splice (preludeSplice [9] (by decide)) (Splice.makes_result _)).2 _ refused
    exact ⟨refused, told, broken, code, itemId⟩

end ApiDelta.Tree
