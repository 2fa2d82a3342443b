import Mathlib.Logic.Relation
import ApiDelta.Proofs.PlanParts

/-!
How the entries of a tree lead to each other, and how tasks are answered. Whether one entry leads to
another is said without paths, names or an order of visits. A number may lead nowhere and a task may
come to nothing; a task that the tree heeds is answered with the plan of an item, of a module's items
or of a block of implementations.
-/
namespace ApiDelta.Tree

def declaration? (tree : Tree) (id : Int) : Option Declaration :=
  (tree.entry? id).map Entry.declaration

theorem declared_of_found {tree : Tree} {id : Int} {entry : Entry}
    (found : tree.entry? id = some entry) : tree.declaration? id = some entry.declaration := by
  rw [declaration?, found]
  rfl

/-! ## Links -/

/-- What a declaration is made of. The items of a module are not its parts. -/
def Declaration.parts : Declaration → List Int
  | .struct decl => decl.fields ++ decl.impls
  | .union decl => decl.fields ++ decl.impls
  | .enum decl => decl.variants ++ decl.impls
  | .variant decl => decl.fields
  | .trait decl => decl.items
  | .impl decl => if decl.Counts then decl.items else []
  | _ => []

/-- An entry leads to another: as a module to an item, to a part, or as a re-export to its target. A
module does not lead to the implementations that it lists, and a re-export of everything in its target
leads to a module only. -/
inductive Leads (tree : Tree) (id : Int) : Int → Prop where
  | item {decl : ModuleDecl} {child : Int} (declared : tree.declaration? id = some (.module decl))
      (member : child ∈ decl.items)
      (ordinary : ∀ block, tree.declaration? child ≠ some (.impl block)) : Leads tree id child
  | part {decl : Declaration} {child : Int} (declared : tree.declaration? id = some decl)
      (member : child ∈ decl.parts) : Leads tree id child
  | named {decl : ReexportDecl} {target : Int}
      (declared : tree.declaration? id = some (.reexport decl)) (single : decl.glob = false)
      (aims : decl.target = some target) (present : (tree.entry? target).isSome) :
      Leads tree id target
  | spliced {decl : ReexportDecl} {target : Int} {module : ModuleDecl}
      (declared : tree.declaration? id = some (.reexport decl)) (whole : decl.glob = true)
      (aims : decl.target = some target) (holds : tree.declaration? target = some (.module module)) :
      Leads tree id target

/-- The entries that the root leads to, in any number of steps. -/
def Reachable (tree : Tree) : Int → Prop :=
  Relation.ReflTransGen tree.Leads rootId

section Links

variable {tree : Tree} {id child : Int}

/-- Only modules and re-exports lead to anything but their parts. -/
theorem leads_iff_mem_parts {declaration : Declaration}
    (declared : tree.declaration? id = some declaration)
    (noModule : ∀ decl, declaration ≠ .module decl)
    (noReexport : ∀ decl, declaration ≠ .reexport decl) :
    tree.Leads id child ↔ child ∈ declaration.parts := by
  constructor
  · intro leads
    cases leads with
    | item other =>
      rw [declared] at other
      exact absurd (Option.some.inj other) (noModule _)
    | part other member =>
      rw [declared] at other
      cases other
      exact member
    | named other | spliced other =>
      rw [declared] at other
      exact absurd (Option.some.inj other) (noReexport _)
  · exact fun member => .part declared member

theorem leads_iff_of_module {decl : ModuleDecl}
    (declared : tree.declaration? id = some (.module decl)) :
    tree.Leads id child ↔
      child ∈ decl.items ∧ ∀ block, tree.declaration? child ≠ some (.impl block) := by
  constructor
  · intro leads
    cases leads with
    | item other member ordinary =>
      rw [declared] at other
      cases other
      exact ⟨member, ordinary⟩
    | part other member =>
      rw [declared] at other
      cases other
      cases member
    | named other | spliced other =>
      rw [declared] at other
      cases other
  · rintro ⟨member, ordinary⟩
    exact .item declared member ordinary

theorem leads_iff_of_reexport {decl : ReexportDecl}
    (declared : tree.declaration? id = some (.reexport decl)) :
    tree.Leads id child ↔ decl.target = some child ∧
      if decl.glob then ∃ module, tree.declaration? child = some (.module module)
      else (tree.entry? child).isSome := by
  constructor
  · intro leads
    cases leads with
    | item other =>
      rw [declared] at other
      cases other
    | part other member =>
      rw [declared] at other
      cases other
      cases member
    | named other single aims present =>
      rw [declared] at other
      cases other
      exact ⟨aims, by simpa [single] using present⟩
    | spliced other whole aims holds =>
      rw [declared] at other
      cases other
      exact ⟨aims, by simpa [whole] using ⟨_, holds⟩⟩
  · rintro ⟨aims, holds⟩
    by_cases whole : decl.glob = true
    · rw [if_pos whole] at holds
      obtain ⟨module, holds⟩ := holds
      exact .spliced declared whole aims holds
    · rw [if_neg whole] at holds
      exact .named declared (eq_false_of_ne_true whole) aims holds

end Links

/-! ## Tasks -/

/-- A task that does not come to nothing. Apart from what the tree refuses, these are the tasks that
visit the entry they ask for. -/
def Heeds (tree : Tree) (task : Task) : Prop :=
  match task.via with
  | .listed _ => ∀ block, tree.declaration? task.id ≠ some (.impl block)
  | .named .. => (tree.entry? task.id).isSome
  | .spliced _ => ∃ module, tree.declaration? task.id = some (.module module)
  | .attached .. => True

section Heeds

variable {tree : Tree} {id : Int} {path : List String}

@[simp] theorem heeds_listed {referrer : Int} :
    tree.Heeds ⟨id, path, .listed referrer⟩ ↔
      ∀ block, tree.declaration? id ≠ some (.impl block) :=
  Iff.rfl

@[simp] theorem heeds_named {importer : Int} {name source : String} :
    tree.Heeds ⟨id, path, .named importer name source⟩ ↔ (tree.entry? id).isSome :=
  Iff.rfl

@[simp] theorem heeds_spliced {source : String} :
    tree.Heeds ⟨id, path, .spliced source⟩ ↔
      ∃ module, tree.declaration? id = some (.module module) :=
  Iff.rfl

@[simp] theorem heeds_attached {type : Identity} {referrer : Int} :
    tree.Heeds ⟨id, path, .attached type referrer⟩ :=
  trivial

end Heeds

/-- How a task that is not refused is answered: not at all, with the plan of an item, with the items of
a module in its place, or with the plan of a block of implementations. -/
inductive Answer (tree : Tree) (task : Task) : Prop where
  | idle (passed : ¬tree.Heeds task) (still : ∀ id, .visit id ∉ (tree.plan task).actions)
      (mute : publications (tree.plan task).actions = []) (last : (tree.plan task).next = [])
  | item (givenName : Option String) {entry : Entry} (heeded : tree.Heeds task)
      (found : tree.entry? task.id = some entry)
      (same : tree.plan task = tree.itemPlan task.id entry task.path givenName)
  | splice {decl : ModuleDecl} (heeded : tree.Heeds task)
      (declared : tree.declaration? task.id = some (.module decl))
      (same : tree.plan task =
        { actions := [.visit task.id], next := listedTasks task.path task.id decl.items })
  | block (type : Identity) {deprecated : Bool} {decl : ImplDecl} (heeded : tree.Heeds task)
      (found : tree.entry? task.id = some ⟨deprecated, .impl decl⟩)
      (same : tree.plan task = tree.implPlan task.id deprecated type decl)

theorem answer_of_accepted {tree : Tree} {task : Task} (accepted : Accepted (tree.plan task).actions) :
    tree.Answer task := by
  obtain ⟨id, path, via⟩ := task
  cases found : tree.entry? id with
  | none =>
    have nowhere : tree.declaration? id = none := by
      rw [declaration?, found]
      rfl
    cases via with
    | listed | attached =>
      simp only [plan, found] at accepted
      exact absurd List.mem_cons_self (accepted _)
    | named importer name source =>
      have same : tree.plan ⟨id, path, .named importer name source⟩ =
          { actions := [.skip (.outside source)] } := by simp only [plan, found]
      refine .idle ?_ ?_ ?_ ?_ <;> simp [same, found, publications, Action.publication?]
    | spliced source =>
      have same : tree.plan ⟨id, path, .spliced source⟩ =
          { actions := [.skip (.outside source)] } := by simp only [plan, found]
      refine .idle ?_ ?_ ?_ ?_ <;> simp [same, nowhere, publications, Action.publication?]
  | some entry =>
    have declared := declared_of_found found
    obtain ⟨deprecated, declaration⟩ := entry
    cases via with
    | listed referrer =>
      cases declaration with
      | impl decl =>
        have same : tree.plan ⟨id, path, .listed referrer⟩ = { actions := [] } := by
          simp only [plan, found]
        refine .idle ?_ ?_ ?_ ?_ <;> simp [same, declared, publications]
      | _ =>
        refine .item none (fun block => by simp [declared]) found ?_
        simp only [plan, found]
    | named importer name source =>
      cases declaration with
      | impl decl =>
        simp only [plan, found] at accepted
        exact absurd List.mem_cons_self (accepted _)
      | _ =>
        refine .item (some name) (by simp [found]) found ?_
        simp only [plan, found]
    | spliced source =>
      cases declaration with
      | module decl =>
        refine .splice ⟨decl, declared⟩ declared ?_
        simp only [plan, found]
      | _ =>
        have same : tree.plan ⟨id, path, .spliced source⟩ =
            { actions := [.skip (.globOfItem source)] } := by simp only [plan, found]
        refine .idle ?_ ?_ ?_ ?_ <;> simp [same, declared, publications, Action.publication?]
    | attached type referrer =>
      cases declaration with
      | impl decl =>
        refine .block type trivial found ?_
        simp only [plan, found]
      | _ =>
        simp only [plan, found] at accepted
        exact absurd List.mem_cons_self (accepted _)

end ApiDelta.Tree
