import ApiDelta.Proofs.LiveReferences
import ApiDelta.Proofs.ReexportChains
import ApiDelta.Proofs.SameParts

/-!
Trees with one more leaf. A leaf is an item without parts: a function, a type definition, a constant or
a static. Inserted under a number that nothing refers to, and into the list of one module, it leaves all
plans as they are but that of the module, which asks for the leaf between the same tasks as before. Where
the leaf is published depends on the path under which the walk goes through the items of the module, and
that is decided by the task that comes to the module first.
-/
namespace ApiDelta.Tree

/-! ## Leaves -/

/-- What an item without parts is published as under its own name, if the entry is one. -/
def Entry.leaf? (entry : Entry) : Option (IdKind × Item) :=
  let item (name : String) (form : Form) : Item := { name, deprecated := entry.deprecated, form }
  match entry.declaration with
  | .function decl => some (.function, item decl.name (.function decl.callable))
  | .typedef decl =>
    some (.typedef, item decl.name
      (.type { typeKind := .typedef, generics := decl.generics, aliased := some decl.type }))
  | .constant decl => some (.constant, item decl.name (.constant decl.type decl.value false false))
  | .static decl => some (.static, item decl.name (.constant decl.type decl.value true decl.mutable))
  | _ => none

section Leaves

variable {tree : Tree} {entry : Entry} {kind : IdKind} {item : Item} {id : Int}

theorem itemPlan_of_leaf (leaf : entry.leaf? = some (kind, item)) (path : List String) :
    tree.itemPlan id entry path none = publishPlan id path kind item := by
  obtain ⟨deprecated, declaration⟩ := entry
  cases declaration <;> cases leaf <;> rfl

theorem owner_of_leaf (leaf : entry.leaf? = some (kind, item)) : item.owner = none := by
  obtain ⟨deprecated, declaration⟩ := entry
  cases declaration <;> cases leaf <;> rfl

/-- A leaf that a module lists is visited and published, and that is all. -/
theorem plan_of_leaf (found : tree.entry? id = some entry) (leaf : entry.leaf? = some (kind, item))
    (path : List String) (referrer : Int) :
    tree.plan ⟨id, path, .listed referrer⟩ = publishPlan id path kind item := by
  have noImpl : ∀ block, entry.declaration ≠ .impl block := by
    intro block isImpl
    rw [Entry.leaf?, isImpl] at leaf
    cases leaf
  rw [plan_listed found noImpl, itemPlan_of_leaf leaf]

end Leaves

/-! ## The paths of modules -/

/-- The path under which a task has the items of a module published. -/
def Task.itemsPath (task : Task) (decl : ModuleDecl) : List String :=
  match task.via with
  | .listed _ => task.path ++ [decl.name]
  | .named _ name _ => task.path ++ [chosenName (some name) decl.name]
  | .spliced _ | .attached .. => task.path

/-- The walk over a tree goes through the items of a module under a path: of the root under the empty
one, and of another module under that of the task which comes to it first. -/
inductive ListsUnder (tree : Tree) (id : Int) (path : List String) : Prop where
  | root (same : id = rootId) (empty : path = [])
  | inner {state : WalkState} {task : Task} {pending : List Task} {decl : ModuleDecl}
      (stage : tree.Stage state (task :: pending)) (fresh : task.id ∉ state.visited)
      (asks : task.id = id) (declared : tree.declaration? id = some (.module decl))
      (under : path = task.itemsPath decl)

section Modules

variable {tree : Tree} {task : Task} {decl : ModuleDecl} {deprecated : Bool}

/-- A task that asks for a module, but not as a block of implementations, visits it and asks for its
items. -/
theorem plan_of_module (found : tree.entry? task.id = some ⟨deprecated, .module decl⟩)
    (direct : ∀ type referrer, task.via ≠ .attached type referrer) :
    tree.plan task =
      { actions := [.visit task.id]
        next := listedTasks (task.itemsPath decl) task.id decl.items } := by
  obtain ⟨id, path, via⟩ := task
  cases via with
  | attached type referrer => exact absurd rfl (direct type referrer)
  | listed | named | spliced => simp only [plan, found, itemPlan, Task.itemsPath, chosenName]

/-- A module is not accepted as a block of implementations. -/
theorem direct_of_accepted (found : tree.entry? task.id = some ⟨deprecated, .module decl⟩)
    (accepted : Accepted (tree.plan task).actions) :
    ∀ type referrer, task.via ≠ .attached type referrer := by
  obtain ⟨id, path, via⟩ := task
  rintro type referrer rfl
  simp only [plan, found] at accepted
  exact accepted _ List.mem_cons_self

theorem root_of_declared (declared : tree.declaration? rootId = some (.module decl)) :
    tree.root = decl :=
  Declaration.module.inj (Option.some.inj (tree.declaration?_rootId.symm.trans declared))

end Modules

/-! ## Insertions -/

/-- A leaf with a number that a tree neither has nor refers to, and a place for it in the list of a
module: after some of the items and before the others. -/
structure Insertion (tree : Tree) where
  host : Int
  deprecated : Bool
  decl : ModuleDecl
  before : List Int
  after : List Int
  number : Int
  entry : Entry
  kind : IdKind
  item : Item
  hosted : tree.entry? host = some ⟨deprecated, .module decl⟩
  split : decl.items = before ++ after
  unused : tree.entry? number = none
  unnamed : ∀ owner, ∀ reference ∈ tree.references owner, reference.id ≠ number
  leaf : entry.leaf? = some (kind, item)

namespace Insertion

variable {tree other : Tree} (insertion : tree.Insertion)

/-- The declaration of the module with the leaf in its list. -/
def hostDecl : ModuleDecl :=
  { insertion.decl with items := insertion.before ++ insertion.number :: insertion.after }

/-- What a number leads to after the insertion. -/
def entry? (id : Int) : Option Entry :=
  if id = insertion.number then some insertion.entry
  else if id = insertion.host then some ⟨insertion.deprecated, .module insertion.hostDecl⟩
  else tree.entry? id

/-- The second tree is the first after the insertion, wherever its index holds the entries. -/
def Makes (other : Tree) : Prop :=
  ∀ id, other.entry? id = insertion.entry? id

/-- The task that asks for the leaf. -/
def task (path : List String) : Task :=
  ⟨insertion.number, path, .listed insertion.host⟩

/-- The entry of a snapshot that the leaf becomes. -/
def published (path : List String) : SnapshotEntry :=
  (⟨path ++ [insertion.item.name], insertion.kind⟩, insertion.item)

theorem number_ne_host : insertion.number ≠ insertion.host := by
  intro same
  have found := insertion.hosted
  rw [← same, insertion.unused] at found
  cases found

theorem number_ne_root : insertion.number ≠ rootId := by
  intro same
  have found := tree.rooted
  have absent := insertion.unused
  rw [same, Tree.entry?] at absent
  rw [absent] at found
  cases found

variable {insertion}

namespace Makes

variable (makes : insertion.Makes other)

include makes

theorem found_leaf : other.entry? insertion.number = some insertion.entry := by
  rw [makes, Insertion.entry?, if_pos rfl]

theorem found_host : other.entry? insertion.host =
    some ⟨insertion.deprecated, .module insertion.hostDecl⟩ := by
  rw [makes, Insertion.entry?, if_neg insertion.number_ne_host.symm, if_pos rfl]

theorem found_other {id : Int} (noHost : id ≠ insertion.host) (noLeaf : id ≠ insertion.number) :
    other.entry? id = tree.entry? id := by
  rw [makes, Insertion.entry?, if_neg noLeaf, if_neg noHost]

/-- No search for a part tells the trees apart: the module is no part, and nothing names the leaf. -/
theorem sameParts : tree.SameParts other := by
  intro owner reference held
  have noLeaf := insertion.unnamed owner reference (List.mem_append_left _ held)
  by_cases isHost : reference.id = insertion.host
  · rw [isHost]
    exact samePart_of_whole insertion.hosted makes.found_host trivial trivial rfl
  · exact samePart_of_same (makes.found_other isHost noLeaf)

/-- A task for anything but the module and the leaf is planned as before. -/
theorem plan_eq {task : Task} (noHost : task.id ≠ insertion.host)
    (noLeaf : task.id ≠ insertion.number) : other.plan task = tree.plan task :=
  Tree.plan_eq makes.sameParts (makes.found_other noHost noLeaf)

theorem plan_leaf (path : List String) : other.plan (insertion.task path) =
    publishPlan insertion.number path insertion.kind insertion.item :=
  plan_of_leaf makes.found_leaf insertion.leaf path insertion.host

/-- The walk starts with the same tasks as before, unless the leaf is in the list of the root. -/
theorem rootTasks_eq (inner : insertion.host ≠ rootId) : other.rootTasks = tree.rootTasks := by
  have kept := makes.found_other inner.symm insertion.number_ne_root.symm
  have declared : other.declaration? rootId = some (.module tree.root) := by
    rw [declaration?, kept]
    exact tree.rooted
  rw [rootTasks, rootTasks, root_of_declared declared]

end Makes

/-- What is asked for before and after the leaf makes up the items of the module. -/
theorem listedTasks_decl (insertion : tree.Insertion) (path : List String) :
    listedTasks path insertion.host insertion.decl.items =
      listedTasks path insertion.host insertion.before ++
        listedTasks path insertion.host insertion.after := by
  rw [insertion.split, listedTasks, List.map_append]
  rfl

/-- The leaf is asked for between the same tasks as before. -/
theorem listedTasks_hostDecl (insertion : tree.Insertion) (path : List String) :
    listedTasks path insertion.host insertion.hostDecl.items =
      listedTasks path insertion.host insertion.before ++
        insertion.task path :: listedTasks path insertion.host insertion.after := by
  rw [hostDecl, listedTasks, List.map_append, List.map_cons]
  rfl

section Host

variable {task : Task} (asks : task.id = insertion.host)
  (accepted : Accepted (tree.plan task).actions)

include asks accepted

/-- A task that is accepted for the module asks for all its items. -/
theorem plan_host : tree.plan task =
    { actions := [.visit insertion.host]
      next := listedTasks (task.itemsPath insertion.decl) insertion.host insertion.before ++
        listedTasks (task.itemsPath insertion.decl) insertion.host insertion.after } := by
  have found : tree.entry? task.id = some ⟨_, .module insertion.decl⟩ := asks ▸ insertion.hosted
  rw [plan_of_module found (direct_of_accepted found accepted), asks, listedTasks_decl]

/-- After the insertion it asks for the leaf as well, in its place. -/
theorem Makes.plan_host (makes : insertion.Makes other) : other.plan task =
    { actions := [.visit insertion.host]
      next := listedTasks (task.itemsPath insertion.decl) insertion.host insertion.before ++
        insertion.task (task.itemsPath insertion.decl) ::
          listedTasks (task.itemsPath insertion.decl) insertion.host insertion.after } := by
  have found : tree.entry? task.id = some ⟨_, .module insertion.decl⟩ := asks ▸ insertion.hosted
  have found' : other.entry? task.id = some ⟨_, .module insertion.hostDecl⟩ :=
    asks ▸ makes.found_host
  have sameName : task.itemsPath insertion.hostDecl = task.itemsPath insertion.decl := rfl
  rw [plan_of_module found' (direct_of_accepted found accepted), asks, sameName,
    listedTasks_hostDecl]

end Host

/-! ### The tree after an insertion -/

theorem lookup_replace (index : Index) (host id : Int) (entry : Entry) :
    (index.map fun pair => if pair.1 = host then (pair.1, entry) else pair).lookup id =
      if id = host then (index.lookup id).map fun _ => entry else index.lookup id := by
  induction index with
  | nil => simp
  | cons pair rest ih =>
    obtain ⟨key, value⟩ := pair
    have head : (if key = host then (key, entry) else (key, value)) =
        (key, if key = host then entry else value) := by split <;> rfl
    rw [List.map_cons, head, List.lookup_cons, List.lookup_cons, ih]
    by_cases here : id = key
    · subst here
      simp only [beq_self_eq_true]
      split <;> rfl
    · simp only [beq_false_of_ne here]

/-- The index after the insertion, with the leaf at its head. -/
def index (insertion : tree.Insertion) : Index :=
  (insertion.number, insertion.entry) :: tree.index.map fun pair =>
    if pair.1 = insertion.host then
      (pair.1, ⟨insertion.deprecated, .module insertion.hostDecl⟩)
    else pair

theorem lookup_index (insertion : tree.Insertion) (id : Int) :
    insertion.index.lookup id = insertion.entry? id := by
  have hosted : tree.index.lookup insertion.host = _ := insertion.hosted
  rw [index, List.lookup_cons, entry?, lookup_replace]
  by_cases isLeaf : id = insertion.number
  · simp only [isLeaf, beq_self_eq_true, if_true]
  · simp only [beq_false_of_ne isLeaf, if_neg isLeaf]
    by_cases isHost : id = insertion.host
    · simp only [isHost, if_true, hosted, Option.map_some]
    · simp only [if_neg isHost, Tree.entry?]

/-- A tree that an insertion makes. -/
def result (insertion : tree.Insertion) : Tree where
  formatVersion := tree.formatVersion
  crateVersion := tree.crateVersion
  index := insertion.index
  root := if insertion.host = rootId then insertion.hostDecl else tree.root
  rooted := by
    rw [lookup_index, entry?, if_neg insertion.number_ne_root.symm]
    by_cases isHost : insertion.host = rootId
    · simp only [isHost, if_true, Option.map_some]
    · rw [if_neg (Ne.symm isHost), if_neg isHost]
      exact tree.rooted

theorem makes_result (insertion : tree.Insertion) : insertion.Makes insertion.result :=
  insertion.lookup_index

end Insertion

end ApiDelta.Tree
