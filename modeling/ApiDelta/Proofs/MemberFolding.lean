import Mathlib.Data.List.Perm.Subperm
import ApiDelta.Proofs.ClassifiedDelta
import ApiDelta.Proofs.Ownership

/-!
Members that come and go. A diagnosis passes over them, since the owner's record of its members changes
with them. But the record holds names and no kinds, so it can stay as it was while a member gives way
to another one. This module says exactly when that happens. An owner that is a struct or a union always
shows the change, and so does the implementation of a trait if the member is a method.
-/
namespace ApiDelta

/-- The diagnosis tells of the owner that it is gone, or new, or not what it was. -/
def Diagnosis.Reports (diagnosis : Diagnosis) (owner : Identity) : Prop :=
  ∃ change ∈ diagnosis.changes, change.id = owner ∧
    change.kind ∈ [ChangeKind.removed, .added, .modified]

/-- An owner of this form records the two members alike: fields of an enumeration if the last two
segments of their paths read the same, members of a trait if they have one name, and members of the
implementation of a trait if they have one name and none of them is a method. -/
def Form.Confuses (form : Form) (member other : SnapshotEntry) : Prop :=
  match form with
  | .type form => form.typeKind = .enum ∧ member.1.qualifiedName = other.1.qualifiedName
  | .traitDef _ => member.2.name = other.2.name
  | .traitImpl _ =>
    member.2.name = other.2.name ∧ member.2.itemClass ≠ .method ∧ other.2.itemClass ≠ .method
  | _ => False

/-- The owner of a member that is gone from the other snapshot says there what it says here, because
another member, which the owner does not have here, is recorded in the place of the one that is gone. -/
def Snapshot.Hides (here there : Snapshot) (owner : Identity) (member : SnapshotEntry) : Prop :=
  ∃ was now other, here.get? owner = some was ∧ there.get? owner = some now ∧ was.Agrees now ∧
    other ∈ there.members owner ∧ other.1 ∉ (here.members owner).map Prod.fst ∧
    was.form.Confuses member other

/-! ## Reports -/

section Reports

variable {old new : Snapshot} {owner : Identity} {was now : Item}

theorem Diagnosis.reports_iff :
    (Diagnosis.between old new).Reports owner ↔
      (∃ item, old.get? owner = some item ∧ new.get? owner = none ∧ item.owner = none) ∨
      (∃ item, new.get? owner = some item ∧ old.get? owner = none ∧ item.owner = none) ∨
      ∃ was now, old.get? owner = some was ∧ new.get? owner = some now ∧ ¬ was.Agrees now := by
  constructor
  · rintro ⟨change, member, rfl, kind⟩
    cases mem_between.mp member with
    | removed held gone free => exact .inl ⟨_, held, gone, free⟩
    | added held absent free => exact .inr (.inl ⟨_, held, absent, free⟩)
    | deprecated => simp [Change.kind] at kind
    | modified before after differ => exact .inr (.inr ⟨_, _, before, after, differ⟩)
  · rintro (⟨item, held, gone, free⟩ | ⟨item, held, absent, free⟩ | ⟨was, now, before, after, differ⟩)
    · exact ⟨_, mem_between.mpr (.removed held gone free), rfl, by simp [Change.kind]⟩
    · exact ⟨_, mem_between.mpr (.added held absent free), rfl, by simp [Change.kind]⟩
    · exact ⟨_, mem_between.mpr (.modified before after differ), rfl, by simp [Change.kind]⟩

/-- An owner with the same to say in both snapshots is passed over. -/
theorem Diagnosis.not_reports_of_agrees (before : old.get? owner = some was)
    (after : new.get? owner = some now) (agree : was.Agrees now) :
    ¬(Diagnosis.between old new).Reports owner := by
  rw [reports_iff]
  rintro (⟨_, _, gone, _⟩ | ⟨_, _, absent, _⟩ | ⟨_, _, held, held', differ⟩)
  · rw [after] at gone
    cases gone
  · rw [before] at absent
    cases absent
  · rw [before] at held
    rw [after] at held'
    cases held
    cases held'
    exact differ agree

/-- An owner in the old snapshot goes unreported only if the new one has it with the same to say. -/
theorem Diagnosis.not_reports_iff_of_old (held : old.get? owner = some was)
    (free : was.owner = none) :
    ¬(Diagnosis.between old new).Reports owner ↔
      ∃ now, new.get? owner = some now ∧ was.Agrees now := by
  constructor
  · intro silent
    rw [reports_iff, not_or, not_or] at silent
    obtain ⟨stays, _, same⟩ := silent
    cases found : new.get? owner with
    | none => exact absurd ⟨was, held, found, free⟩ stays
    | some now => exact ⟨now, rfl, by_contra fun differ => same ⟨was, now, held, found, differ⟩⟩
  · rintro ⟨now, found, agree⟩
    exact not_reports_of_agrees held found agree

theorem Diagnosis.not_reports_iff_of_new (held : new.get? owner = some now)
    (free : now.owner = none) :
    ¬(Diagnosis.between old new).Reports owner ↔
      ∃ was, old.get? owner = some was ∧ now.Agrees was := by
  constructor
  · intro silent
    rw [reports_iff, not_or, not_or] at silent
    obtain ⟨_, known, same⟩ := silent
    cases found : old.get? owner with
    | none => exact absurd ⟨now, held, found, free⟩ known
    | some was =>
      refine ⟨was, rfl, by_contra fun differ => same ⟨was, now, found, held, fun agree => ?_⟩⟩
      exact differ agree.symm
  · rintro ⟨was, found, agree⟩
    exact not_reports_of_agrees found held agree.symm

end Reports

/-! ## Members with one record -/

/-- Two lists have the same labels, and no key occurs twice in the second. Then an element whose key is
missing from the second list has its label taken by one whose key is missing from the first. -/
theorem exists_unmatched {α κ β : Type} [DecidableEq β] {first second : List α} {key : α → κ}
    {label : α → β} (distinct : (second.map key).Nodup)
    (labels : (first.map label).Perm (second.map label))
    (agree : ∀ a ∈ first, ∀ b ∈ second, key a = key b → label a = label b) {a : α}
    (member : a ∈ first) (gone : key a ∉ second.map key) :
    ∃ b ∈ second, key b ∉ first.map key ∧ label a = label b := by
  by_contra none
  have known : ∀ b ∈ second, label a = label b → key b ∈ first.map key := by
    intro b inSecond same
    by_contra absent
    exact none ⟨b, inSecond, absent, same⟩
  -- of the elements with the label, those of the second list are among those of the first
  have subset : (second.filter (label a = label ·)).map key ⊆
      (first.filter (label a = label ·)).map key := by
    intro k inside
    obtain ⟨b, selected, rfl⟩ := List.mem_map.mp inside
    obtain ⟨inSecond, same⟩ := List.mem_filter.mp selected
    obtain ⟨other, inFirst, keys⟩ := List.mem_map.mp (known b inSecond (of_decide_eq_true same))
    have labelled : label a = label other :=
      (of_decide_eq_true same).trans (agree other inFirst b inSecond keys).symm
    exact List.mem_map.mpr ⟨other, List.mem_filter.mpr ⟨inFirst, decide_eq_true labelled⟩, keys⟩
  have count : (first.filter (label a = label ·)).length =
      (second.filter (label a = label ·)).length := by
    have counted := labels.countP_eq (label a = ·)
    rw [List.countP_map, List.countP_map, List.countP_eq_length_filter,
      List.countP_eq_length_filter] at counted
    exact counted
  have nodup : ((second.filter (label a = label ·)).map key).Nodup :=
    distinct.sublist (List.filter_sublist.map key)
  have same : ((second.filter (label a = label ·)).map key).Perm
      ((first.filter (label a = label ·)).map key) := by
    refine (List.subperm_of_subset nodup subset).perm_of_length_le ?_
    rw [List.length_map, List.length_map, count]
  have selected : key a ∈ (first.filter (label a = label ·)).map key :=
    List.mem_map.mpr ⟨a, List.mem_filter.mpr ⟨member, decide_eq_true rfl⟩, rfl⟩
  exact gone ((List.filter_sublist.map key).subset (same.mem_iff.mpr selected))

section Folding

variable {here there : Snapshot} {owner : Identity} {was now : Item} {member other : SnapshotEntry}

theorem Belongs.getLast? {holder : SnapshotEntry} (belongs : Belongs holder member) :
    member.1.path.getLast? = some member.2.name := by
  have placed := belongs.placed
  split at placed
  · obtain ⟨variant, _, path⟩ := placed
    simp [path]
  · simp [placed]

/-- Members of one owner under one identity have one name. -/
theorem Belongs.name_eq (belongs : Belongs (owner, was) member)
    (belongs' : Belongs (owner, now) other) (same : member.1 = other.1) :
    member.2.name = other.2.name := by
  have last := belongs.getLast?
  rw [same, belongs'.getLast?] at last
  exact (Option.some.inj last).symm

/-- Unless the owner is an enumeration, a name and a kind leave one identity. -/
theorem Belongs.id_eq (belongs : Belongs (owner, was) member) (belongs' : Belongs (owner, now) other)
    (noEnum : owner.kind ≠ .enum) (kinds : member.1.kind = other.1.kind)
    (names : member.2.name = other.2.name) : member.1 = other.1 := by
  have placed := belongs.placed
  have placed' := belongs'.placed
  rw [if_neg noEnum] at placed placed'
  rw [Identity.mk.injEq]
  exact ⟨by rw [placed, placed', names], kinds⟩

theorem Snapshot.nodup_ids_members (s : Snapshot) (owner : Identity) :
    ((s.members owner).map Prod.fst).Nodup :=
  s.nodup.sublist (List.filter_sublist.map Prod.fst)

theorem Snapshot.Kept.belongs {s : Snapshot} (kept : s.Kept) (held : s.get? owner = some was)
    (inside : member ∈ s.members owner) : Belongs (owner, was) member := by
  obtain ⟨entry, owned⟩ := mem_members.mp inside
  obtain ⟨holder, found, belongs⟩ := kept.held member entry owner owned
  rw [held] at found
  cases found
  exact belongs

theorem Snapshot.not_mem_ids_members {s : Snapshot} (gone : s.get? member.1 = none) :
    member.1 ∉ (s.members owner).map Prod.fst := by
  intro inside
  obtain ⟨other, known, same⟩ := List.mem_map.mp inside
  have found := get?_eq_some_iff.mpr (mem_members.mp known).1
  rw [same, gone] at found
  cases found

/-- An owner that records the same names in both snapshots has another member for the one that is
gone, among all its members or among those of certain classes. -/
theorem exists_unmatched_member {label : SnapshotEntry → String} {names : List String}
    (chosen : SnapshotEntry → Bool)
    (records : Records names (((here.members owner).filter chosen).map label))
    (records' : Records names (((there.members owner).filter chosen).map label))
    (labels : ∀ a ∈ here.members owner, ∀ b ∈ there.members owner, a.1 = b.1 → label a = label b)
    (choices : ∀ a ∈ here.members owner, ∀ b ∈ there.members owner, a.1 = b.1 →
      chosen a = chosen b)
    (inside : member ∈ here.members owner) (chose : chosen member)
    (gone : there.get? member.1 = none) :
    ∃ other ∈ there.members owner, other.1 ∉ (here.members owner).map Prod.fst ∧
      chosen other ∧ label member = label other := by
  have distinct : (((there.members owner).filter chosen).map Prod.fst).Nodup :=
    (there.nodup_ids_members owner).sublist (List.filter_sublist.map Prod.fst)
  have absent : member.1 ∉ ((there.members owner).filter chosen).map Prod.fst := fun known =>
    Snapshot.not_mem_ids_members gone ((List.filter_sublist.map Prod.fst).subset known)
  obtain ⟨other, selected, unknown, same⟩ := exists_unmatched distinct (records.perm records')
    (fun a first b second => labels a (List.mem_filter.mp first).1 b (List.mem_filter.mp second).1)
    (List.mem_filter.mpr ⟨inside, chose⟩) absent
  obtain ⟨there', chose'⟩ := List.mem_filter.mp selected
  refine ⟨other, there', fun known => unknown ?_, chose', same⟩
  obtain ⟨a, first, keys⟩ := List.mem_map.mp known
  have chosen' : chosen a := (choices a first other there' keys).trans chose'
  exact List.mem_map.mpr ⟨a, List.mem_filter.mpr ⟨first, chosen'⟩, keys⟩

/-- An owner that says the same in two snapshots, in each of which members and owners agree. -/
structure Unchanged (here there : Snapshot) (owner : Identity) (was now : Item) : Prop where
  kept : here.Kept
  kept' : there.Kept
  held : here.get? owner = some was
  held' : there.get? owner = some now
  agree : was.Agrees now

namespace Unchanged

variable (unchanged : Unchanged here there owner was now)

include unchanged

theorem belongs (first : member ∈ here.members owner) : Belongs (owner, was) member :=
  unchanged.kept.belongs unchanged.held first

theorem belongs' (second : other ∈ there.members owner) : Belongs (owner, now) other :=
  unchanged.kept'.belongs unchanged.held' second

theorem lists : was.form.Lists (here.members owner) :=
  unchanged.kept.listed owner was unchanged.held

theorem lists' : was.form.Lists (there.members owner) := by
  rw [unchanged.agree.form]
  exact unchanged.kept'.listed owner now unchanged.held'

theorem names (first : member ∈ here.members owner) (second : other ∈ there.members owner)
    (same : member.1 = other.1) : member.2.name = other.2.name :=
  (unchanged.belongs first).name_eq (unchanged.belongs' second) same

/-- Fields and methods are told by their identities. -/
theorem classes {itemClass : ItemClass} (told : itemClass = .field ∨ itemClass = .method)
    (first : member ∈ here.members owner) (second : other ∈ there.members owner)
    (same : member.1 = other.1) :
    member.2.itemClass = itemClass ↔ other.2.itemClass = itemClass := by
  have belongs := unchanged.belongs first
  have belongs' := unchanged.belongs' second
  rcases told with rfl | rfl
  · rw [← belongs.field, ← belongs'.field, same]
  · rw [← belongs.method, ← belongs'.method, same]

/-- Unless the owner is an enumeration, a member with the name of one that is gone has another kind. -/
theorem kind_ne (noEnum : owner.kind ≠ .enum) (first : member ∈ here.members owner)
    (second : other ∈ there.members owner) (gone : there.get? member.1 = none)
    (names : member.2.name = other.2.name) : member.1.kind ≠ other.1.kind := by
  intro kinds
  have same := (unchanged.belongs first).id_eq (unchanged.belongs' second) noEnum kinds names
  exact Snapshot.not_mem_ids_members gone (List.mem_map.mpr ⟨other, second, same.symm⟩)

theorem isField {form : TypeForm} (shape : was.form = .type form)
    (first : member ∈ here.members owner) : member.2.itemClass = .field :=
  (unchanged.belongs first).inType (by rw [Item.itemClass, shape, Form.itemClass])

theorem enum_iff {form : TypeForm} (shape : was.form = .type form)
    (first : member ∈ here.members owner) : owner.kind = .enum ↔ form.typeKind = .enum := by
  have enum := (unchanged.belongs first).enum
  rw [shape] at enum
  simpa [Form.typeKind?] using enum

/-- A field of an unchanged struct or union is not gone: it has no identity but one. -/
theorem field_stays {form : TypeForm} (shape : was.form = .type form)
    (kind : form.typeKind = .struct ∨ form.typeKind = .union)
    (inside : member ∈ here.members owner) : there.get? member.1 ≠ none := by
  intro gone
  have lists := unchanged.lists
  have lists' := unchanged.lists'
  rw [shape, Form.lists_struct_or_union kind] at lists lists'
  have noEnum : owner.kind ≠ .enum := by
    rw [Ne, unchanged.enum_iff shape inside]
    rcases kind with kind | kind <;> simp [kind]
  have isField := unchanged.isField shape inside
  obtain ⟨other, second, _, isField', same⟩ := exists_unmatched_member _ lists lists'
    (fun a first b second => unchanged.names first second)
    (fun a first b second same => decide_eq_decide.mpr
      (unchanged.classes (.inl rfl) first second same)) inside (decide_eq_true isField) gone
  refine unchanged.kind_ne noEnum inside second gone same ?_
  rw [(unchanged.belongs inside).field.mpr isField]
  exact ((unchanged.belongs' second).field.mpr (of_decide_eq_true isField')).symm

theorem exists_confused_in_enum {form : TypeForm} (shape : was.form = .type form)
    (kind : form.typeKind = .enum) (inside : member ∈ here.members owner)
    (gone : there.get? member.1 = none) :
    ∃ other ∈ there.members owner, other.1 ∉ (here.members owner).map Prod.fst ∧
      (Form.type form).Confuses member other := by
  have lists := unchanged.lists
  have lists' := unchanged.lists'
  rw [shape, Form.lists_enum kind] at lists lists'
  obtain ⟨other, second, unknown, _, same⟩ := exists_unmatched_member _ lists lists'
    (fun a _ b _ same => congrArg Identity.qualifiedName same)
    (fun a first b second same => decide_eq_decide.mpr
      (unchanged.classes (.inl rfl) first second same)) inside
    (decide_eq_true (unchanged.isField shape inside)) gone
  exact ⟨other, second, unknown, kind, same⟩

theorem no_members_of_typedef {form : TypeForm} (shape : was.form = .type form)
    (kind : form.typeKind = .typedef) : here.members owner = [] := by
  have lists := unchanged.lists
  rw [shape] at lists
  unfold Form.Lists at lists
  simpa only [kind] using lists

theorem exists_confused_in_trait {form : TraitForm} (shape : was.form = .traitDef form)
    (inside : member ∈ here.members owner) (gone : there.get? member.1 = none) :
    ∃ other ∈ there.members owner, other.1 ∉ (here.members owner).map Prod.fst ∧
      (Form.traitDef form).Confuses member other := by
  have lists := unchanged.lists
  have lists' := unchanged.lists'
  rw [shape] at lists lists'
  have all : ∀ members : List SnapshotEntry, members.filter (fun _ => true) = members := by simp
  have records : Records form.members
      (((here.members owner).filter fun _ => true).map (·.2.name)) := (all _).symm ▸ lists
  have records' : Records form.members
      (((there.members owner).filter fun _ => true).map (·.2.name)) := (all _).symm ▸ lists'
  obtain ⟨other, second, unknown, _, same⟩ := exists_unmatched_member _ records records'
    (fun a first b second => unchanged.names first second) (fun _ _ _ _ _ => rfl) inside rfl gone
  exact ⟨other, second, unknown, same⟩

/-- A method of an unchanged implementation of a trait is not gone. -/
theorem method_stays {form : TraitImplForm} (shape : was.form = .traitImpl form)
    (inside : member ∈ here.members owner) (isMethod : member.2.itemClass = .method) :
    there.get? member.1 ≠ none := by
  intro gone
  obtain ⟨methods, _⟩ : (Form.traitImpl form).Lists (here.members owner) := shape ▸ unchanged.lists
  obtain ⟨methods', _⟩ : (Form.traitImpl form).Lists (there.members owner) :=
    shape ▸ unchanged.lists'
  have belongs := unchanged.belongs inside
  have noEnum : owner.kind ≠ .enum := by
    rw [Ne, belongs.enum, shape]
    exact nofun
  obtain ⟨other, second, _, isMethod', same⟩ := exists_unmatched_member _ methods methods'
    (fun a first b second => unchanged.names first second)
    (fun a first b second same => decide_eq_decide.mpr
      (unchanged.classes (.inr rfl) first second same)) inside (decide_eq_true isMethod) gone
  refine unchanged.kind_ne noEnum inside second gone same ?_
  rw [belongs.method.mpr isMethod]
  exact ((unchanged.belongs' second).method.mpr (of_decide_eq_true isMethod')).symm

theorem exists_confused_in_traitImpl {form : TraitImplForm} (shape : was.form = .traitImpl form)
    (inside : member ∈ here.members owner) (gone : there.get? member.1 = none) :
    ∃ other ∈ there.members owner, other.1 ∉ (here.members owner).map Prod.fst ∧
      (Form.traitImpl form).Confuses member other := by
  obtain ⟨_, members⟩ : (Form.traitImpl form).Lists (here.members owner) := shape ▸ unchanged.lists
  obtain ⟨_, members'⟩ : (Form.traitImpl form).Lists (there.members owner) :=
    shape ▸ unchanged.lists'
  have noMethod : member.2.itemClass ≠ .method := fun isMethod =>
    unchanged.method_stays shape inside isMethod gone
  obtain ⟨other, second, unknown, noMethod', same⟩ := exists_unmatched_member _ members members'
    (fun a first b second => unchanged.names first second)
    (fun a first b second same => decide_eq_decide.mpr
      (not_congr (unchanged.classes (.inr rfl) first second same))) inside
    (decide_eq_true noMethod) gone
  exact ⟨other, second, unknown, same, noMethod, of_decide_eq_true noMethod'⟩

/-- **A member gives way to another.** If a member of an unchanged owner is gone from the second
snapshot, then the owner has a member there that it confuses with the one that is gone. -/
theorem exists_confused (inside : member ∈ here.members owner) (gone : there.get? member.1 = none) :
    ∃ other ∈ there.members owner, other.1 ∉ (here.members owner).map Prod.fst ∧
      was.form.Confuses member other := by
  cases shape : was.form with
  | type form =>
    cases kind : form.typeKind with
    | struct => exact absurd gone (unchanged.field_stays shape (.inl kind) inside)
    | union => exact absurd gone (unchanged.field_stays shape (.inr kind) inside)
    | enum => exact unchanged.exists_confused_in_enum shape kind inside gone
    | typedef =>
      rw [unchanged.no_members_of_typedef shape kind] at inside
      cases inside
  | traitDef form => exact unchanged.exists_confused_in_trait shape inside gone
  | traitImpl form => exact unchanged.exists_confused_in_traitImpl shape inside gone
  | function | method | field | assocType | assocConst | constant =>
    have none : here.members owner = [] := by
      have lists := unchanged.lists
      rw [shape] at lists
      exact lists
    rw [none] at inside
    cases inside

end Unchanged

/-- The owner of a member that is gone says the same exactly if it is hidden that the member is gone. -/
theorem hides_iff (kept : here.Kept) (kept' : there.Kept) (inside : member ∈ here.members owner)
    (held : here.get? owner = some was) (gone : there.get? member.1 = none) :
    here.Hides there owner member ↔ ∃ now, there.get? owner = some now ∧ was.Agrees now := by
  constructor
  · rintro ⟨was', now, _, held', found, agree, _⟩
    rw [held] at held'
    cases held'
    exact ⟨now, found, agree⟩
  · rintro ⟨now, found, agree⟩
    have unchanged : Unchanged here there owner was now := ⟨kept, kept', held, found, agree⟩
    obtain ⟨other, second, unknown, confused⟩ := unchanged.exists_confused inside gone
    exact ⟨was, now, other, held, found, agree, second, unknown, confused⟩

/-- Only the fields of an enumeration, the members of a trait, and the members of a trait's
implementation apart from its methods can be gone without notice. -/
theorem owner_of_hides (hides : here.Hides there owner member) :
    ∃ was, here.get? owner = some was ∧
      (was.form.typeKind? = some .enum ∨ was.itemClass = .traitDef ∨
        was.itemClass = .traitImpl ∧ member.2.itemClass ≠ .method) := by
  obtain ⟨was, _, other, held, _, _, _, _, confused⟩ := hides
  refine ⟨was, held, ?_⟩
  unfold Item.itemClass
  cases shape : was.form with
  | type form =>
    rw [shape] at confused
    exact .inl (congrArg some confused.1)
  | traitDef form => exact .inr (.inl rfl)
  | traitImpl form =>
    rw [shape] at confused
    exact .inr (.inr ⟨rfl, confused.2.1⟩)
  | function | method | field | assocType | assocConst | constant =>
    rw [shape] at confused
    cases confused

end Folding

/-! ## Trees -/

/-- **When a member comes or goes unreported.** A member of a tree's snapshot that the other snapshot
does not have is reported through its owner, as removed, added or modified, unless the other snapshot
hides that it is missing; and whenever it does, the member is not reported. -/
theorem unreported_iff_hidden {oldTree newTree : Tree} {old new : Snapshot}
    (translated : Snapshot.ofTree? oldTree = .ok old)
    (translated' : Snapshot.ofTree? newTree = .ok new) :
    (∀ owner, ∀ member ∈ old.members owner, new.get? member.1 = none →
      (¬(Diagnosis.between old new).Reports owner ↔ old.Hides new owner member)) ∧
    ∀ owner, ∀ member ∈ new.members owner, old.get? member.1 = none →
      (¬(Diagnosis.between old new).Reports owner ↔ new.Hides old owner member) := by
  have kept := Tree.kept_of_ofTree? translated
  have kept' := Tree.kept_of_ofTree? translated'
  constructor
  · intro owner member inside gone
    obtain ⟨entry, owned⟩ := Snapshot.mem_members.mp inside
    obtain ⟨was, held, belongs⟩ := kept.held member entry owner owned
    rw [hides_iff kept kept' inside held gone]
    exact Diagnosis.not_reports_iff_of_old held belongs.free
  · intro owner member inside absent
    obtain ⟨entry, owned⟩ := Snapshot.mem_members.mp inside
    obtain ⟨now, held, belongs⟩ := kept'.held member entry owner owned
    rw [hides_iff kept' kept inside held absent]
    exact Diagnosis.not_reports_iff_of_new held belongs.free

/-- A trait with one member. -/
def traitTree (member : Tree.Declaration) : Tree where
  index := [
    (0, { declaration := .module { name := "demo", items := [1] } }),
    (1, { declaration := .trait { name := "T", items := [2] } }),
    (2, { declaration := member })]
  root := { name := "demo", items := [1] }
  rooted := rfl

/-- The trait whose only member is a type. -/
def typeMemberTree : Tree :=
  traitTree (.assocType { name := "X" })

/-- The trait whose only member is a constant, under the same name. -/
def constMemberTree : Tree :=
  traitTree (.assocConst { name := "X", type := "u8" })

/-- The item of the trait, which says the same of both members. -/
def oneMemberTrait : Item where
  name := "T"
  form := .traitDef { members := Tree.sortTexts ["X"] }

private theorem typeMemberTree_translates :
    ∃ old, Snapshot.ofTree? typeMemberTree = .ok old ∧
      old.get? ⟨["T"], .trait⟩ = some oneMemberTrait ∧
      old.members ⟨["T"], .trait⟩ = [(⟨["T", "X"], .assocType⟩,
        { name := "X", owner := some ⟨["T"], .trait⟩, form := .assocType [] [] none })] := by
  have run : ∃ final, Tree.Run typeMemberTree .start typeMemberTree.rootTasks
      [⟨1, [], .listed 0⟩] final ∧ final.published.get? ⟨["T"], .trait⟩ = some oneMemberTrait ∧
      final.published.members ⟨["T"], .trait⟩ = [(⟨["T", "X"], .assocType⟩,
        { name := "X", owner := some ⟨["T"], .trait⟩, form := .assocType [] [] none })] :=
    ⟨_, .answer (by decide) rfl .done, rfl, rfl⟩
  obtain ⟨final, run, trait, members⟩ := run
  exact ⟨_, Tree.ofTree?_eq_ok_iff.mpr ⟨_, final, run, rfl⟩, trait, members⟩

private theorem constMemberTree_translates :
    ∃ new, Snapshot.ofTree? constMemberTree = .ok new ∧
      new.get? ⟨["T"], .trait⟩ = some oneMemberTrait ∧
      new.get? ⟨["T", "X"], .assocType⟩ = none := by
  have run : ∃ final, Tree.Run constMemberTree .start constMemberTree.rootTasks
      [⟨1, [], .listed 0⟩] final ∧ final.published.get? ⟨["T"], .trait⟩ = some oneMemberTrait ∧
      final.published.get? ⟨["T", "X"], .assocType⟩ = none :=
    ⟨_, .answer (by decide) rfl .done, rfl, rfl⟩
  obtain ⟨final, run, trait, absent⟩ := run
  exact ⟨_, Tree.ofTree?_eq_ok_iff.mpr ⟨_, final, run, rfl⟩, trait, absent⟩

/-- An associated type that gives way to a constant of its name goes unreported. -/
theorem type_member_goes_unreported :
    ∃ old new, Snapshot.ofTree? typeMemberTree = .ok old ∧
      Snapshot.ofTree? constMemberTree = .ok new ∧
      ∃ member ∈ old.members ⟨["T"], .trait⟩, new.get? member.1 = none ∧
        ¬(Diagnosis.between old new).Reports ⟨["T"], .trait⟩ := by
  obtain ⟨old, translated, held, members⟩ := typeMemberTree_translates
  obtain ⟨new, translated', held', absent⟩ := constMemberTree_translates
  refine ⟨old, new, translated, translated', _, members ▸ List.mem_singleton_self _, absent, ?_⟩
  exact Diagnosis.not_reports_of_agrees held held' ⟨rfl, rfl, rfl⟩

/-- What hides the associated type is the constant. -/
theorem type_member_hidden_by_const :
    ∃ old new, Snapshot.ofTree? typeMemberTree = .ok old ∧
      Snapshot.ofTree? constMemberTree = .ok new ∧
      ∃ member ∈ old.members ⟨["T"], .trait⟩, new.get? member.1 = none ∧
        old.Hides new ⟨["T"], .trait⟩ member := by
  obtain ⟨old, translated, held, members⟩ := typeMemberTree_translates
  obtain ⟨new, translated', held', absent⟩ := constMemberTree_translates
  have inside : (⟨["T", "X"], .assocType⟩,
      { name := "X", owner := some ⟨["T"], .trait⟩, form := .assocType [] [] none }) ∈
      old.members ⟨["T"], .trait⟩ := members ▸ List.mem_singleton_self _
  have silent : ¬(Diagnosis.between old new).Reports ⟨["T"], .trait⟩ :=
    Diagnosis.not_reports_of_agrees held held' ⟨rfl, rfl, rfl⟩
  exact ⟨old, new, translated, translated', _, inside, absent,
    ((unreported_iff_hidden translated translated').1 _ _ inside absent).mp silent⟩

end ApiDelta
