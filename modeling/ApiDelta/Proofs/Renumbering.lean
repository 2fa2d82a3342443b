import Mathlib.Logic.Function.Basic
import ApiDelta.Tree.Walk

/-!
Renumbering a tree. The numbers of a tree are names that its entries have for each other: two runs of
an extractor may hand them out differently. A renumbering keeps different entries apart and leaves the
root where it is; applied to a tree it changes the numbers in the index and all references with them,
and nothing else.
-/
namespace ApiDelta.Tree

/-- Another number for every entry. A permutation of the numbers is one if it fixes the root's. -/
structure Renumbering where
  number : Int → Int
  injective : Function.Injective number
  root : number rootId = rootId

namespace Renumbering

instance : CoeFun Renumbering fun _ => Int → Int :=
  ⟨number⟩

/-- The numbers as they are. -/
def same : Renumbering :=
  ⟨id, Function.injective_id, rfl⟩

@[simp] theorem same_apply (id : Int) : same id = id := rfl

variable {scheme : Renumbering} {id other : Int} {ids : List Int}

@[simp] theorem apply_inj : scheme id = scheme other ↔ id = other :=
  scheme.injective.eq_iff

theorem apply_root (scheme : Renumbering) : scheme rootId = rootId :=
  scheme.root

theorem mem_map : scheme id ∈ ids.map scheme ↔ id ∈ ids := by
  simp

end Renumbering

/-! ## Trees -/

/-- The same declaration, referring to others by their new numbers. -/
def Declaration.renumber (scheme : Renumbering) : Declaration → Declaration
  | .module decl => .module { decl with items := decl.items.map scheme }
  | .struct decl =>
    .struct { decl with fields := decl.fields.map scheme, impls := decl.impls.map scheme }
  | .union decl =>
    .union { decl with fields := decl.fields.map scheme, impls := decl.impls.map scheme }
  | .enum decl =>
    .enum { decl with variants := decl.variants.map scheme, impls := decl.impls.map scheme }
  | .variant decl => .variant { decl with fields := decl.fields.map scheme }
  | .trait decl => .trait { decl with items := decl.items.map scheme }
  | .impl decl => .impl { decl with items := decl.items.map scheme }
  | .reexport decl => .reexport { decl with target := decl.target.map scheme }
  | other => other

def Entry.renumber (scheme : Renumbering) (entry : Entry) : Entry :=
  { entry with declaration := entry.declaration.renumber scheme }

def Index.renumber (scheme : Renumbering) (index : Index) : Index :=
  index.map fun pair => (scheme pair.1, pair.2.renumber scheme)

theorem Index.lookup_renumber (scheme : Renumbering) (index : Index) (id : Int) :
    (index.renumber scheme).lookup (scheme id) = (index.lookup id).map (Entry.renumber scheme) := by
  induction index with
  | nil => rfl
  | cons pair rest ih =>
    obtain ⟨key, entry⟩ := pair
    have keys : (scheme id == scheme key) = (id == key) :=
      decide_eq_decide.mpr Renumbering.apply_inj
    rw [renumber, List.map_cons, List.lookup_cons, List.lookup_cons, keys]
    cases id == key with
    | true => rfl
    | false => exact ih

/-- The tree with its entries under new numbers. -/
def renumber (scheme : Renumbering) (tree : Tree) : Tree where
  formatVersion := tree.formatVersion
  crateVersion := tree.crateVersion
  index := tree.index.renumber scheme
  root := { tree.root with items := tree.root.items.map scheme }
  rooted := by
    obtain ⟨entry, found, declared⟩ := Option.map_eq_some_iff.mp tree.rooted
    have moved := tree.index.lookup_renumber scheme rootId
    rw [scheme.apply_root, found] at moved
    rw [moved, Option.map_some, Option.map_some, Entry.renumber, declared]
    rfl

theorem entry?_renumber (scheme : Renumbering) (tree : Tree) (id : Int) :
    entry? (tree.renumber scheme) (scheme id) = (tree.entry? id).map (Entry.renumber scheme) :=
  tree.index.lookup_renumber scheme id

theorem Declaration.kind_renumber (scheme : Renumbering) (declaration : Declaration) :
    (declaration.renumber scheme).kind = declaration.kind := by
  cases declaration <;> rfl

/-! ## Problems -/

def Place.renumber (scheme : Renumbering) : Place → Place
  | .inModule => .inModule
  | .reexportedBy importer => .reexportedBy (scheme importer)
  | .fieldOf owner => .fieldOf (scheme owner)
  | .variantOf owner => .variantOf (scheme owner)
  | .implOf owner => .implOf (scheme owner)
  | .memberOf owner => .memberOf (scheme owner)

/-- The same problem, told with the new numbers. -/
def Problem.renumber (scheme : Renumbering) : Problem → Problem
  | .kindNotText key id => .kindNotText key (id.map scheme)
  | .kindUnknown key id shown => .kindUnknown key (id.map scheme) shown
  | .rootNumber root => .rootNumber (scheme root)
  | .rootMissing root => .rootMissing (scheme root)
  | .rootNotModule root kind => .rootNotModule (scheme root) kind
  | .dangling id referrer => .dangling (scheme id) (scheme referrer)
  | .misplaced id kind place => .misplaced (scheme id) kind (place.renumber scheme)
  | other => other

theorem Problem.code_renumber (scheme : Renumbering) (problem : Problem) :
    (problem.renumber scheme).code = problem.code := by
  cases problem <;> rfl

theorem Problem.itemId_renumber (scheme : Renumbering) (problem : Problem) :
    (problem.renumber scheme).itemId = problem.itemId.map scheme := by
  cases problem <;> rfl

end ApiDelta.Tree
