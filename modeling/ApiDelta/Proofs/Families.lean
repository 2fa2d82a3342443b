import Mathlib.Data.List.Nodup
import Mathlib.Data.List.Perm.Basic
import ApiDelta.Proofs.PlanParts

/-!
Owners and their members. An owner records its members by name only, in an order of its own: a type
the fields, a trait everything, the implementation of a trait its methods and the rest. This module
says when an owner and some members make up a family, and shows that in a list of families under
different identities, the items with some owner are the parts of that owner's family.
-/
namespace ApiDelta

/-- A list that gives the names in order, each as often as it occurs. -/
def Records (list names : List String) : Prop :=
  list.Pairwise (· ≤ ·) ∧ list.Perm names

/-- An owner of this form records exactly these members. The fields of an enumeration are recorded with
their variants, as the last two segments of their paths. Other forms own nothing. -/
def Form.Lists (form : Form) (members : List SnapshotEntry) : Prop :=
  match form with
  | .type form =>
    let fields := members.filter (·.2.itemClass = .field)
    match form.typeKind with
    | .struct | .union => Records form.fields (fields.map (·.2.name))
    | .enum => Records form.fields (fields.map (·.1.qualifiedName))
    | .typedef => members = []
  | .traitDef form => Records form.members (members.map (·.2.name))
  | .traitImpl form =>
    Records form.methods ((members.filter (·.2.itemClass = .method)).map (·.2.name)) ∧
      Records form.members ((members.filter (·.2.itemClass ≠ .method)).map (·.2.name))
  | _ => members = []

section Lists

variable {form : TypeForm} {members : List SnapshotEntry}

theorem Form.lists_struct_or_union (shape : form.typeKind = .struct ∨ form.typeKind = .union) :
    (Form.type form).Lists members ↔
      Records form.fields ((members.filter (·.2.itemClass = .field)).map (·.2.name)) := by
  unfold Form.Lists
  rcases shape with shape | shape <;> simp only [shape]

theorem Form.lists_enum (shape : form.typeKind = .enum) :
    (Form.type form).Lists members ↔
      Records form.fields ((members.filter (·.2.itemClass = .field)).map (·.1.qualifiedName)) := by
  unfold Form.Lists
  simp only [shape]

end Lists

def Form.typeKind? : Form → Option TypeKind
  | .type form => some form.typeKind
  | _ => none

/-- The names of an enumeration's variants. -/
def Form.variants : Form → List String
  | .type form => form.variants
  | _ => []

/-- A member stands under its owner: the owner is no member itself, and the path of the member goes
on from the path of the owner by its name, or by a variant and its name. -/
structure Belongs (owner member : SnapshotEntry) : Prop where
  free : owner.2.owner = none
  owned : member.2.owner = some owner.1
  enum : owner.1.kind = .enum ↔ owner.2.form.typeKind? = some .enum
  placed : if owner.1.kind = .enum then
      ∃ variant ∈ owner.2.form.variants, member.1.path = owner.1.path ++ [variant, member.2.name]
    else member.1.path = owner.1.path ++ [member.2.name]
  field : member.1.kind = .structField ↔ member.2.itemClass = .field
  method : member.1.kind = .method ↔ member.2.itemClass = .method
  inType : owner.2.itemClass = .type → member.2.itemClass = .field

/-! ## Recorded names -/

section Records

variable {list names : List String}

theorem Records.perm {other : List String} (records : Records list names)
    (records' : Records list other) : names.Perm other :=
  records.2.symm.trans records'.2

theorem Records.of_perm {other : List String} (records : Records list names)
    (same : names.Perm other) : Records list other :=
  ⟨records.1, records.2.trans same⟩

theorem records_sortTexts (same : names = list) : Records (Tree.sortTexts list) names := by
  subst same
  constructor
  · have transitive : ∀ a b c : String, decide (a ≤ b) → decide (b ≤ c) → decide (a ≤ c) := by
      simpa using fun _ _ _ => String.le_trans
    have total : ∀ a b : String, decide (a ≤ b) || decide (b ≤ a) := by
      simpa using String.le_total
    have sorted := List.pairwise_mergeSort transitive total names
    simpa only [Tree.sortTexts, decide_eq_true_eq] using sorted
  · exact List.mergeSort_perm _ _

theorem mem_sortTexts {text : String} : text ∈ Tree.sortTexts list ↔ text ∈ list :=
  (List.mergeSort_perm list _).mem_iff

end Records

/-- The order in which members are given does not matter. -/
theorem Form.Lists.of_perm {form : Form} {members others : List SnapshotEntry}
    (lists : form.Lists members) (same : members.Perm others) : form.Lists others := by
  cases form with
  | type form =>
    unfold Form.Lists at lists ⊢
    cases kind : form.typeKind with
    | struct | union | enum =>
      simp only [kind] at lists ⊢
      exact lists.of_perm ((same.filter _).map _)
    | typedef =>
      simp only [kind] at lists ⊢
      exact (lists ▸ same).nil_eq.symm
  | traitDef form => exact Records.of_perm lists (same.map _)
  | traitImpl form =>
    exact ⟨Records.of_perm lists.1 ((same.filter _).map _),
      Records.of_perm lists.2 ((same.filter _).map _)⟩
  | function | method | field | assocType | assocConst | constant =>
    have none : members = [] := lists
    exact (none ▸ same).nil_eq.symm

/-! ## Families -/

namespace Tree

/-- An item that is no member, with the items published before it as its members. -/
structure Family (owner : Publication) (parts : List Publication) : Prop where
  free : owner.item.owner = none
  belongs : ∀ part ∈ parts, Belongs owner.entry part.entry
  plain : ∀ part ∈ parts, part.item.form.Lists []
  listed : owner.item.form.Lists (parts.map Publication.entry)

/-- A list of families, each with its owner at the end. -/
inductive Grouped : List Publication → Prop where
  | nil : Grouped []
  | family {owner : Publication} {parts rest : List Publication} (family : Family owner parts)
      (grouped : Grouped rest) : Grouped (parts ++ owner :: rest)

section Grouped

variable {list rest : List Publication} {publication : Publication}

theorem Family.grouped {owner : Publication} {parts : List Publication} (family : Family owner parts) :
    Grouped (parts ++ [owner]) :=
  .family family .nil

/-- An item that owns nothing is a family of its own. -/
theorem Family.alone (free : publication.item.owner = none) (plain : publication.item.form.Lists []) :
    Family publication [] where
  free := free
  belongs := fun _ none => absurd none List.not_mem_nil
  plain := fun _ none => absurd none List.not_mem_nil
  listed := plain

theorem Grouped.append (first : Grouped list) (second : Grouped rest) : Grouped (list ++ rest) := by
  induction first with
  | nil => exact second
  | family family _ ih => simpa using Grouped.family family ih

theorem Grouped.flatMap {α : Type} {items : List α} {make : α → List Publication}
    (grouped : ∀ item ∈ items, Grouped (make item)) : Grouped (items.flatMap make) := by
  induction items with
  | nil => exact .nil
  | cons item rest ih =>
    have later : ∀ item ∈ rest, Grouped (make item) := fun other member =>
      grouped other (List.mem_cons_of_mem _ member)
    exact (grouped item List.mem_cons_self).append (ih later)

/-- A member's family is somewhere in the list, with the owner. -/
theorem Grouped.family_of_owner {owner : Identity} (grouped : Grouped list)
    (member : publication ∈ list) (owned : publication.item.owner = some owner) :
    ∃ holder ∈ list, holder.id = owner ∧ Belongs holder.entry publication.entry ∧
      publication.item.form.Lists [] := by
  induction grouped with
  | nil => cases member
  | @family holder parts rest family _ ih =>
    rcases List.mem_append.mp member with inside | later
    · have belongs := family.belongs publication inside
      have same : some holder.id = some owner := belongs.owned.symm.trans owned
      exact ⟨holder, by simp, Option.some.inj same, belongs, family.plain publication inside⟩
    · rcases List.mem_cons.mp later with rfl | later
      · rw [family.free] at owned
        cases owned
      · obtain ⟨holder, member, found⟩ := ih later
        exact ⟨holder, by simp [member], found⟩

/-- The items with a given owner are the parts of one family, or there are none and nothing stands
under the owner's identity but a member. -/
theorem Grouped.owned_parts (grouped : Grouped list) (distinct : (list.map (·.id)).Nodup)
    (owner : Identity) :
    (∃ holder ∈ list, holder.id = owner ∧
      Family holder (list.filter (·.item.owner = some owner))) ∨
    (∀ other ∈ list, other.id = owner → other.item.owner ≠ none) ∧
      list.filter (·.item.owner = some owner) = [] := by
  induction grouped with
  | nil => exact .inr ⟨fun _ none => absurd none List.not_mem_nil, rfl⟩
  | @family holder parts rest family _ ih =>
    rw [List.map_append, List.map_cons, List.nodup_append] at distinct
    obtain ⟨_, later, _⟩ := distinct
    obtain ⟨alone, later⟩ := List.nodup_cons.mp later
    have split : (parts ++ holder :: rest).filter (·.item.owner = some owner) =
        parts.filter (·.item.owner = some owner) ++ rest.filter (·.item.owner = some owner) := by
      rw [List.filter_append, List.filter_cons_of_neg (by simp [family.free])]
    rw [split]
    by_cases same : holder.id = owner
    · have all : parts.filter (·.item.owner = some owner) = parts := by
        refine List.filter_eq_self.mpr fun part member => ?_
        have owned : part.item.owner = some holder.id := (family.belongs part member).owned
        simpa [same] using owned
      have none : rest.filter (·.item.owner = some owner) = [] := by
        rcases ih later with ⟨other, member, same', _⟩ | ⟨_, none⟩
        · exact absurd (List.mem_map.mpr ⟨other, member, same'.trans same.symm⟩) alone
        · exact none
      refine .inl ⟨holder, by simp, same, ?_⟩
      rw [all, none, List.append_nil]
      exact family
    · have none : parts.filter (·.item.owner = some owner) = [] := by
        refine List.filter_eq_nil_iff.mpr fun part member => ?_
        have owned : part.item.owner = some holder.id := (family.belongs part member).owned
        simpa [owned] using same
      rw [none, List.nil_append]
      rcases ih later with ⟨other, member, found⟩ | ⟨free, empty⟩
      · exact .inl ⟨other, by simp [member], found⟩
      · refine .inr ⟨fun other member named => ?_, empty⟩
        rcases List.mem_append.mp member with inside | outside
        · have owned : other.item.owner = some holder.id := (family.belongs other inside).owned
          simp [owned]
        · rcases List.mem_cons.mp outside with rfl | outside
          · exact absurd named same
          · exact free other outside named

/-- Every item of the list records the items that it owns. -/
theorem Grouped.lists (grouped : Grouped list) (distinct : (list.map (·.id)).Nodup)
    (member : publication ∈ list) :
    publication.item.form.Lists
      ((list.filter (·.item.owner = some publication.id)).map Publication.entry) := by
  rcases grouped.owned_parts distinct publication.id with
    ⟨holder, member', same, family⟩ | ⟨free, none⟩
  · have : holder = publication := List.inj_on_of_nodup_map distinct member' member same
    exact this ▸ family.listed
  · obtain ⟨owner, owned⟩ := Option.ne_none_iff_exists'.mp (free publication member rfl)
    obtain ⟨_, _, _, _, plain⟩ := grouped.family_of_owner member owned
    rw [none]
    exact plain

end Grouped

end Tree

/-! ## Snapshots -/

namespace Snapshot

/-- The items of a snapshot with a given owner. -/
def members (s : Snapshot) (owner : Identity) : List SnapshotEntry :=
  s.entries.filter (·.2.owner = some owner)

/-- Members and owners agree: every member has its owner, and every item records what it owns. -/
structure Kept (s : Snapshot) : Prop where
  held : ∀ member ∈ s.entries, ∀ owner, member.2.owner = some owner →
    ∃ holder, s.get? owner = some holder ∧ Belongs (owner, holder) member
  listed : ∀ owner holder, s.get? owner = some holder → holder.form.Lists (s.members owner)

theorem mem_members {s : Snapshot} {owner : Identity} {member : SnapshotEntry} :
    member ∈ s.members owner ↔ member ∈ s.entries ∧ member.2.owner = some owner := by
  rw [members, List.mem_filter, decide_eq_true_iff]

/-- What is published in families makes a snapshot in which members and owners agree. -/
theorem kept_of_grouped {s : Snapshot} {list : List Tree.Publication}
    (entries : s.entries = (list.map Tree.Publication.entry).reverse)
    (grouped : Tree.Grouped list) : s.Kept := by
  have distinct : (list.map (·.id)).Nodup := by
    have ids := s.nodup
    rwa [entries, List.map_reverse, List.nodup_reverse, List.map_map] at ids
  have mem_entries : ∀ entry, entry ∈ s.entries ↔ ∃ publication ∈ list, publication.entry = entry := by
    intro entry
    rw [entries, List.mem_reverse, List.mem_map]
  constructor
  case held =>
    intro member inside owner owned
    obtain ⟨publication, published, rfl⟩ := (mem_entries member).mp inside
    obtain ⟨holder, member', rfl, belongs, _⟩ := grouped.family_of_owner published owned
    exact ⟨holder.item, get?_eq_some_iff.mpr ((mem_entries _).mpr ⟨holder, member', rfl⟩), belongs⟩
  case listed =>
    intro owner holder found
    obtain ⟨publication, published, same⟩ := (mem_entries _).mp (get?_eq_some_iff.mp found)
    cases same
    refine (grouped.lists distinct published).of_perm ?_
    have reversed : s.members publication.id =
        ((list.filter (·.item.owner = some publication.id)).map Tree.Publication.entry).reverse := by
      rw [members, entries, List.filter_reverse, List.filter_map]
      rfl
    rw [reversed]
    exact (List.reverse_perm _).symm

end Snapshot

end ApiDelta
