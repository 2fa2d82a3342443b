import ApiDelta.Proofs.CompatibleSteps
import ApiDelta.Proofs.MemberFolding
import ApiDelta.Proofs.TypedSnapshots

/-!
What an owner's list of names is worth. The list of fields of a struct or a union, and the list of
methods of the implementation of a trait, name each member once and in order, and the name with the path
of the owner is the identity of the member. So the list changes exactly if the set of those identities
does, however the members lie in the snapshot, and a diagnosis tells of the one by the other.
-/
namespace ApiDelta

/-- The identities of the members of one class that an owner has. -/
def Snapshot.membersOf (s : Snapshot) (owner : Identity) (itemClass : ItemClass) : Set Identity :=
  {id | ∃ item, s.get? id = some item ∧ item.owner = some owner ∧ item.itemClass = itemClass}

/-- A list names the members of one class: in order, each once, and by the last segment of its path. -/
structure Snapshot.Names (s : Snapshot) (owner : Identity) (itemClass : ItemClass) (kind : IdKind)
    (list : List String) : Prop where
  increasing : list.Pairwise (· < ·)
  exact : ∀ id, id ∈ s.membersOf owner itemClass ↔ ∃ name ∈ list, id = ⟨owner.path ++ [name], kind⟩

namespace Snapshot

variable {s s' : Snapshot} {owner id : Identity} {was now : Item} {itemClass : ItemClass}
  {kind : IdKind} {list list' : List String}

theorem mem_membersOf :
    id ∈ s.membersOf owner itemClass ↔
      ∃ member ∈ (s.members owner).filter (·.2.itemClass = itemClass), member.1 = id := by
  constructor
  · rintro ⟨item, held, owned, isClass⟩
    have inside := mem_members.mpr ⟨get?_eq_some_iff.mp held, owned⟩
    exact ⟨(id, item), List.mem_filter.mpr ⟨inside, decide_eq_true isClass⟩, rfl⟩
  · rintro ⟨member, chosen, rfl⟩
    obtain ⟨inside, isClass⟩ := List.mem_filter.mp chosen
    obtain ⟨entry, owned⟩ := mem_members.mp inside
    exact ⟨member.2, get?_eq_some_iff.mpr entry, owned, of_decide_eq_true isClass⟩

/-- A record of the members of one class names them, since no two of them have one identity. -/
theorem Kept.names (kept : s.Kept) (held : s.get? owner = some was) (noEnum : owner.kind ≠ .enum)
    (told : ∀ member ∈ s.members owner, member.1.kind = kind ↔ member.2.itemClass = itemClass)
    (records : Records list (((s.members owner).filter (·.2.itemClass = itemClass)).map (·.2.name))) :
    s.Names owner itemClass kind list := by
  have id_eq : ∀ member ∈ (s.members owner).filter (·.2.itemClass = itemClass),
      member.1 = ⟨owner.path ++ [member.2.name], kind⟩ := by
    intro member chosen
    obtain ⟨inside, isClass⟩ := List.mem_filter.mp chosen
    have placed := (kept.belongs held inside).placed
    rw [if_neg noEnum] at placed
    rw [← (told member inside).mpr (of_decide_eq_true isClass), ← placed]
  constructor
  · have distinct : (((s.members owner).filter (·.2.itemClass = itemClass)).map Prod.fst).Nodup :=
      (s.nodup_ids_members owner).sublist (List.filter_sublist.map Prod.fst)
    have nodup : list.Nodup := by
      let under (name : String) : Identity := ⟨owner.path ++ [name], kind⟩
      refine records.2.nodup_iff.mpr (List.Nodup.of_map under ?_)
      rw [List.map_map]
      rwa [List.map_congr_left id_eq] at distinct
    exact (records.1.and nodup).imp fun both => lt_of_le_of_ne both.1 both.2
  · intro id
    simp only [mem_membersOf, records.2.mem_iff, List.mem_map]
    constructor
    · rintro ⟨member, chosen, rfl⟩
      exact ⟨_, ⟨member, chosen, rfl⟩, id_eq member chosen⟩
    · rintro ⟨_, ⟨member, chosen, rfl⟩, rfl⟩
      exact ⟨member, chosen, id_eq member chosen⟩

/-- Two lists that name the members of an owner are equal exactly if the members are. -/
theorem Names.eq_iff (names : s.Names owner itemClass kind list)
    (names' : s'.Names owner itemClass kind list') :
    list = list' ↔ s.membersOf owner itemClass = s'.membersOf owner itemClass := by
  constructor
  · rintro rfl
    ext id
    rw [names.exact, names'.exact]
  · intro same
    refine names.increasing.eq_of_mem_iff names'.increasing fun name => ?_
    have member : ∀ {t : Snapshot} {l : List String}, t.Names owner itemClass kind l →
        (⟨owner.path ++ [name], kind⟩ ∈ t.membersOf owner itemClass ↔ name ∈ l) := by
      intro t l names
      simp [names.exact]
    rw [← member names, ← member names', same]

end Snapshot

namespace Tree

variable {tree : Tree} {s : Snapshot} {id : Identity} {item : Item}

/-- A struct or a union that was read from a tree names its fields. -/
theorem names_fields (translated : Snapshot.ofTree? tree = .ok s)
    (shape : id.kind = .struct ∨ id.kind = .union) (held : s.get? id = some item) :
    ∃ form, item.form = .type form ∧ s.Names id .field .structField form.fields := by
  have kept := kept_of_ofTree? translated
  have admits := (Snapshot.wellTyped_of_translated translated held).form
  have noEnum : id.kind ≠ .enum := by rcases shape with shape | shape <;> simp [shape]
  obtain ⟨form, isType, kind⟩ : ∃ form, item.form = .type form ∧
      (form.typeKind = .struct ∨ form.typeKind = .union) := by
    generalize item.form = form at admits ⊢
    rcases shape with shape | shape <;> rw [shape] at admits
    · cases admits with
      | struct kind => exact ⟨_, rfl, .inl kind⟩
    · cases admits with
      | union kind => exact ⟨_, rfl, .inr kind⟩
  have listed := kept.listed id item held
  rw [isType, Form.lists_struct_or_union kind] at listed
  exact ⟨form, isType, kept.names held noEnum (fun _ inside => (kept.belongs held inside).field) listed⟩

/-- The implementation of a trait that was read from a tree names its methods. -/
theorem names_methods (translated : Snapshot.ofTree? tree = .ok s) (isImpl : id.kind = .impl)
    (held : s.get? id = some item) :
    ∃ form, item.form = .traitImpl form ∧ s.Names id .method .method form.methods := by
  have kept := kept_of_ofTree? translated
  have admits := (Snapshot.wellTyped_of_translated translated held).form
  have noEnum : id.kind ≠ .enum := by simp [isImpl]
  obtain ⟨form, isTraitImpl⟩ : ∃ form, item.form = .traitImpl form := by
    generalize item.form = form at admits ⊢
    rw [isImpl] at admits
    cases admits with
    | impl => exact ⟨_, rfl⟩
  have listed := kept.listed id item held
  rw [isTraitImpl] at listed
  exact ⟨form, isTraitImpl,
    kept.names held noEnum (fun _ inside => (kept.belongs held inside).method) listed.1⟩

end Tree

namespace Diagnosis

/-- The diagnosis tells of a modification of an identity in an attribute, which others may join. -/
def Modifies (d : Diagnosis) (id : Identity) (name : String) : Prop :=
  ∃ was now breaking fields, .modified id was now breaking fields ∈ d.changes ∧ name ∈ fields

variable {old new : Snapshot} {id : Identity} {was now : Item} {breaking : Bool}
  {fields : List String} {name : String}

/-- A modification between items of one class tells of the attributes in which they differ. -/
theorem modifies_iff (held : old.get? id = some was) (kept : new.get? id = some now)
    (sameClass : was.itemClass = now.itemClass) :
    (between old new).Modifies id name ↔ was.attribute? name ≠ now.attribute? name := by
  constructor
  · rintro ⟨before, after, breaking, fields, member, listed⟩
    obtain ⟨heldThere, keptThere, _, _, rfl⟩ := modified_iff.mp member
    obtain rfl := Option.some.inj (heldThere.symm.trans held)
    obtain rfl := Option.some.inj (keptThere.symm.trans kept)
    rw [Item.differences, if_pos sameClass] at listed
    exact Item.mem_changedAttributes.mp listed
  · intro differ
    have disagree : ¬ was.Agrees now := fun agree =>
      differ (by simp only [Item.attribute?, agree.attributes])
    refine ⟨was, now, _, _, modified_iff.mpr ⟨held, kept, disagree, rfl, rfl⟩, ?_⟩
    rw [Item.differences, if_pos sameClass]
    exact Item.mem_changedAttributes.mpr differ

/-- An attribute that names the members of one class is told to be modified exactly if they change. -/
theorem modifies_iff_of_names {itemClass : ItemClass} {kind : IdKind} {list list' : List String}
    (held : old.get? id = some was) (kept : new.get? id = some now)
    (sameClass : was.itemClass = now.itemClass) (names : old.Names id itemClass kind list)
    (names' : new.Names id itemClass kind list') (texts : was.attribute? name = some (.texts list))
    (texts' : now.attribute? name = some (.texts list')) :
    (between old new).Modifies id name ↔ old.membersOf id itemClass ≠ new.membersOf id itemClass := by
  rw [modifies_iff held kept sameClass, texts, texts', Ne, Ne, ← names.eq_iff names']
  simp

/-- A type that is modified in its fields breaks callers. -/
theorem breaking_of_fields (member : .modified id was now breaking fields ∈ (between old new).changes)
    (isType : was.itemClass = .type) (listed : "fields" ∈ fields) : breaking = true := by
  obtain ⟨_, _, _, rfl, rfl⟩ := modified_iff.mp member
  refine Bool.eq_true_of_not_eq_false fun passed => ?_
  have forward := (Item.isBreakingModification_eq_false_iff.mp passed).forward
  rw [Item.differences, if_pos forward.sameClass] at listed
  have spared := forward.atMost (Item.mem_differing.mpr listed)
  rw [isType] at spared
  simp [ItemClass.spared] at spared

/-- The implementation of a trait that is modified in its methods alone breaks nobody. -/
theorem not_breaking_of_methods
    (member : .modified id was now breaking ["methods"] ∈ (between old new).changes)
    (isTraitImpl : was.itemClass = .traitImpl) (sameClass : was.itemClass = now.itemClass) :
    breaking = false := by
  obtain ⟨_, _, _, rfl, only⟩ := modified_iff.mp member
  rw [Item.differences, if_pos sameClass] at only
  refine Item.isBreakingModification_eq_false_iff.mpr (.otherOverrides isTraitImpl ?_ ?_)
  · exact sameClass.symm.trans isTraitImpl
  · exact (Item.differing_eq_singleton_iff.mpr only.symm).subset

section Translated

variable {tree tree' : Tree} (translated : Snapshot.ofTree? tree = .ok old)
  (translated' : Snapshot.ofTree? tree' = .ok new)

include translated translated'

/-- A struct or a union is told to be modified in its fields exactly if it has other fields. -/
theorem modifies_fields_iff (shape : id.kind = .struct ∨ id.kind = .union)
    (held : old.get? id = some was) (kept : new.get? id = some now) :
    (between old new).Modifies id "fields" ↔ old.membersOf id .field ≠ new.membersOf id .field := by
  obtain ⟨form, isType, names⟩ := Tree.names_fields translated shape held
  obtain ⟨form', isType', names'⟩ := Tree.names_fields translated' shape kept
  have sameClass : was.itemClass = now.itemClass := by
    rw [Item.itemClass, Item.itemClass, isType, isType', Form.itemClass, Form.itemClass]
  have texts {item : Item} {form : TypeForm} (isType : item.form = .type form) :
      item.attribute? "fields" = some (.texts form.fields) := by
    simp [Item.attribute?_of_form, isType, Form.attributes, List.lookup_cons]
  exact modifies_iff_of_names held kept sameClass names names' (texts isType) (texts isType')

/-- The implementation of a trait is told to be modified in its methods exactly if it has others. -/
theorem modifies_methods_iff (isImpl : id.kind = .impl) (held : old.get? id = some was)
    (kept : new.get? id = some now) :
    (between old new).Modifies id "methods" ↔
      old.membersOf id .method ≠ new.membersOf id .method := by
  obtain ⟨form, isTraitImpl, names⟩ := Tree.names_methods translated isImpl held
  obtain ⟨form', isTraitImpl', names'⟩ := Tree.names_methods translated' isImpl kept
  have sameClass : was.itemClass = now.itemClass := by
    rw [Item.itemClass, Item.itemClass, isTraitImpl, isTraitImpl', Form.itemClass, Form.itemClass]
  have texts {item : Item} {form : TraitImplForm} (isTraitImpl : item.form = .traitImpl form) :
      item.attribute? "methods" = some (.texts form.methods) := by
    simp [Item.attribute?_of_form, isTraitImpl, Form.attributes, List.lookup_cons]
  exact modifies_iff_of_names held kept sameClass names names' (texts isTraitImpl) (texts isTraitImpl')

end Translated

/-- **Changes of member lists are told exactly.** For a struct or a union in two snapshots that were
read from trees, a modification of its fields is reported exactly if it has other fields than before,
told by their identities, and it breaks callers. For the implementation of a trait, a modification of
its methods is reported exactly if it has other methods, and alone it breaks nobody. -/
theorem member_lists_are_exact (tree tree' : Tree) (s s' : Snapshot)
    (translated : Snapshot.ofTree? tree = .ok s) (translated' : Snapshot.ofTree? tree' = .ok s') :
    (∀ id, id.kind = .struct ∨ id.kind = .union → s.get? id ≠ none → s'.get? id ≠ none →
      ((between s s').Modifies id "fields" ↔ s.membersOf id .field ≠ s'.membersOf id .field) ∧
      ∀ was now breaking fields, .modified id was now breaking fields ∈ (between s s').changes →
        "fields" ∈ fields → breaking = true) ∧
    ∀ id, id.kind = .impl → s.get? id ≠ none → s'.get? id ≠ none →
      ((between s s').Modifies id "methods" ↔ s.membersOf id .method ≠ s'.membersOf id .method) ∧
      ∀ was now breaking, .modified id was now breaking ["methods"] ∈ (between s s').changes →
        breaking = false := by
  constructor
  · intro id shape there there'
    obtain ⟨was, held⟩ := Option.ne_none_iff_exists'.mp there
    obtain ⟨now, kept⟩ := Option.ne_none_iff_exists'.mp there'
    refine ⟨modifies_fields_iff translated translated' shape held kept, ?_⟩
    intro before after breaking fields member listed
    obtain ⟨form, isType, _⟩ := Tree.names_fields translated shape (modified_iff.mp member).1
    exact breaking_of_fields member (by rw [Item.itemClass, isType, Form.itemClass]) listed
  · intro id isImpl there there'
    obtain ⟨was, held⟩ := Option.ne_none_iff_exists'.mp there
    obtain ⟨now, kept⟩ := Option.ne_none_iff_exists'.mp there'
    refine ⟨modifies_methods_iff translated translated' isImpl held kept, ?_⟩
    intro before after breaking member
    obtain ⟨found, found', _⟩ := modified_iff.mp member
    obtain ⟨form, isTraitImpl, _⟩ := Tree.names_methods translated isImpl found
    obtain ⟨form', isTraitImpl', _⟩ := Tree.names_methods translated' isImpl found'
    have isClass : before.itemClass = .traitImpl := by
      rw [Item.itemClass, isTraitImpl, Form.itemClass]
    have isClass' : after.itemClass = .traitImpl := by
      rw [Item.itemClass, isTraitImpl', Form.itemClass]
    exact not_breaking_of_methods member isClass (isClass.trans isClass'.symm)

/-- A struct with one field, and its implementation of a trait with these items. -/
def stackTree (field : String) (overrides : List Int) : Tree where
  index := [
    (0, { declaration := .module { name := "lib", items := [1] } }),
    (1, { declaration := .struct { name := "Stack", fields := [2], impls := [3] } }),
    (2, { declaration := .structField { name := field, type := "usize" } }),
    (3, { declaration := .impl { forType := "Stack", trait := some "Show", items := overrides } }),
    (4, { declaration := .function { name := "show", callable := ⟨[], none, [], {}⟩ } })]
  root := { name := "lib", items := [1] }
  rooted := rfl

def stackImpl : Identity :=
  Tree.implIdentity { forType := "Stack", trait := some "Show" } ⟨["Stack"], .struct⟩ "Show"

def showItem (methods : List String) : Item where
  name := "Show"
  form := .traitImpl {
    trait := "Show", forType := "Stack", members := Tree.sortTexts [], methods := Tree.sortTexts methods }

/-- The field gets another name, which breaks callers, and the implementation leaves its method to the
trait, which does not. -/
theorem member_lists_are_exact_stack :
    ∃ s s', Snapshot.ofTree? (stackTree "len" [4]) = .ok s ∧
      Snapshot.ofTree? (stackTree "size" []) = .ok s' ∧
      (∃ was now fields, .modified ⟨["Stack"], .struct⟩ was now true fields ∈ (between s s').changes) ∧
      .modified stackImpl (showItem ["show"]) (showItem []) false ["methods"] ∈
        (between s s').changes := by
  have translated : ∃ s, Snapshot.ofTree? (stackTree "len" [4]) = .ok s ∧
      s.get? ⟨["Stack"], .struct⟩ ≠ none ∧
      ⟨["Stack", "len"], .structField⟩ ∈ s.membersOf ⟨["Stack"], .struct⟩ .field ∧
      s.get? stackImpl = some (showItem ["show"]) :=
    ⟨_, Tree.ofTree?_eq_ok_iff.mpr ⟨_, _, .answer (by decide) rfl (.answer (by decide) rfl .done), rfl⟩,
      Option.some_ne_none _, ⟨_, rfl, rfl, rfl⟩, rfl⟩
  have translated' : ∃ s, Snapshot.ofTree? (stackTree "size" []) = .ok s ∧
      s.get? ⟨["Stack"], .struct⟩ ≠ none ∧ s.get? ⟨["Stack", "len"], .structField⟩ = none ∧
      s.get? stackImpl = some (showItem []) :=
    ⟨_, Tree.ofTree?_eq_ok_iff.mpr ⟨_, _, .answer (by decide) rfl (.answer (by decide) rfl .done), rfl⟩,
      Option.some_ne_none _, rfl, rfl⟩
  obtain ⟨s, translated, there, field, held⟩ := translated
  obtain ⟨s', translated', there', gone, kept⟩ := translated'
  obtain ⟨types, impls⟩ := member_lists_are_exact _ _ s s' translated translated'
  obtain ⟨fields, breaks⟩ := types ⟨["Stack"], .struct⟩ (.inl rfl) there there'
  obtain ⟨_, spares⟩ := impls stackImpl rfl (by simp [held]) (by simp [kept])
  have renamed : s.membersOf ⟨["Stack"], .struct⟩ .field ≠ s'.membersOf ⟨["Stack"], .struct⟩ .field := by
    intro same
    obtain ⟨item, found, _⟩ := same ▸ field
    cases gone.symm.trans found
  obtain ⟨was, now, _, _, member, listed⟩ := fields.mpr renamed
  have only : Item.differing (showItem ["show"]) (showItem []) = {"methods"} := by
    refine Set.Subset.antisymm (Item.differing_subset_methods rfl rfl) (Set.singleton_subset_iff.mpr ?_)
    simp [Item.differing, showItem, Item.attribute?_of_form, Form.attributes, Tree.sortTexts,
      List.lookup_cons]
  have told := Item.differing_eq_singleton_iff.mp only
  have disagree : ¬ (showItem ["show"]).Agrees (showItem []) := by
    intro agree
    have unchanged := (Item.changedAttributes_eq_nil_iff agree.itemClass).mpr agree
    cases told.symm.trans unchanged
  have modified := modified_iff.mpr ⟨held, kept, disagree, rfl, told.symm⟩
  exact ⟨s, s', translated, translated', ⟨was, now, _, breaks _ _ _ _ member listed ▸ member⟩,
    spares _ _ _ modified ▸ modified⟩

end Diagnosis

end ApiDelta
