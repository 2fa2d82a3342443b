import ApiDelta.Proofs.Families
import ApiDelta.Proofs.Links

/-!
Members and owners in the snapshot of a tree. Each plan publishes families: the parts of a type, a
trait or the implementation of a trait directly before their owner, and any other item alone. No two
items are published under one identity, so what holds of a family as it is published holds of the
owner and of all its members in the snapshot.
-/
namespace ApiDelta.Tree

variable {tree : Tree} {type : Identity} {path : List String} {referrer id : Int} {ids : List Int}
  {publication : Publication}

/-! ## Fields -/

theorem publications_fieldActions (accepted : Accepted (tree.fieldActions type path referrer id)) :
    ∃ deprecated decl, publications (tree.fieldActions type path referrer id) =
      [fieldPublication type path id deprecated decl] := by
  obtain ⟨deprecated, decl, _, same⟩ := fieldActions_of_accepted accepted
  rw [same]
  exact ⟨deprecated, decl, rfl⟩

theorem mem_fields (accepted : Accepted (ids.flatMap (tree.fieldActions type path referrer)))
    (member : publication ∈ publications (ids.flatMap (tree.fieldActions type path referrer))) :
    ∃ id deprecated decl, publication = fieldPublication type path id deprecated decl := by
  rw [publications_flatMap] at member
  obtain ⟨id, listed, published⟩ := List.mem_flatMap.mp member
  obtain ⟨deprecated, decl, same⟩ := publications_fieldActions (accepted.of_mem_flatMap listed)
  rw [same] at published
  exact ⟨id, deprecated, decl, List.mem_singleton.mp published⟩

/-- A field of a variant is published under a variant of the list. -/
theorem mem_variant_fields (accepted : Accepted (ids.flatMap (tree.variantActions type referrer)))
    (member : publication ∈ publications (ids.flatMap (tree.variantActions type referrer))) :
    ∃ variant ∈ (tree.variants referrer ids).map (·.2.name), ∃ id deprecated decl,
      publication = fieldPublication type (type.path ++ [variant]) id deprecated decl := by
  rw [publications_flatMap] at member
  obtain ⟨id, listed, published⟩ := List.mem_flatMap.mp member
  have accepted := accepted.of_mem_flatMap listed
  obtain ⟨deprecated, variant, found, same⟩ := variantActions_of_accepted accepted
  rw [same] at published accepted
  have known : (id, variant) ∈ tree.variants referrer ids := by
    refine List.mem_filterMap.mpr ⟨id, listed, ?_⟩
    simp only [variant?, found]
    rfl
  exact ⟨variant.name, List.mem_map.mpr ⟨_, known, rfl⟩, mem_fields accepted.of_cons published⟩

/-! ## Types -/

section Types

variable {owner : Publication} {form : TypeForm} {parts : List Publication}

/-- Fields before the type that owns them make up a family if they are placed and recorded well. -/
theorem family_of_type (free : owner.item.owner = none) (isType : owner.item.form = .type form)
    (enum : owner.id.kind = .enum ↔ form.typeKind = .enum)
    (fields : ∀ part ∈ parts, ∃ path id deprecated decl,
      part = fieldPublication owner.id path id deprecated decl ∧
        if owner.id.kind = .enum then ∃ variant ∈ form.variants, path = owner.id.path ++ [variant]
        else path = owner.id.path)
    (listed : (Form.type form).Lists (parts.map Publication.entry)) : Family owner parts := by
  constructor
  case free => exact free
  case plain =>
    intro part member
    obtain ⟨_, _, _, _, rfl, _⟩ := fields part member
    rfl
  case listed => rwa [isType]
  case belongs =>
    intro part member
    obtain ⟨path, id, deprecated, decl, rfl, placed⟩ := fields part member
    constructor
    case free => exact free
    case owned => rfl
    case enum =>
      have kind : owner.item.form.typeKind? = some form.typeKind := by rw [isType, Form.typeKind?]
      show owner.id.kind = .enum ↔ owner.item.form.typeKind? = some .enum
      rw [kind, Option.some.injEq]
      exact enum
    case placed =>
      have variants : owner.item.form.variants = form.variants := by rw [isType, Form.variants]
      show if owner.id.kind = .enum then ∃ variant ∈ owner.item.form.variants,
        path ++ [decl.name] = owner.id.path ++ [variant, decl.name] else
        path ++ [decl.name] = owner.id.path ++ [decl.name]
      split at placed
      · obtain ⟨variant, known, rfl⟩ := placed
        rw [if_pos ‹_›]
        exact ⟨variant, variants ▸ known, List.append_assoc _ _ _⟩
      · rw [if_neg ‹_›, placed]
    case field => simp [Publication.entry, fieldPublication, Item.itemClass, Form.itemClass]
    case method => simp [Publication.entry, fieldPublication, Item.itemClass, Form.itemClass]
    case inType => exact fun _ => rfl

/-- Among fields, those that are fields are all. -/
theorem filter_fields (fields : ∀ part ∈ parts, part.item.itemClass = .field) :
    (parts.map Publication.entry).filter (·.2.itemClass = .field) = parts.map Publication.entry := by
  refine List.filter_eq_self.mpr fun entry member => ?_
  obtain ⟨part, published, rfl⟩ := List.mem_map.mp member
  exact decide_eq_true (fields part published)

theorem family_of_fields {name : String} {deprecated : Bool} {kind : IdKind}
    (accepted : Accepted (ids.flatMap (tree.fieldActions ⟨path, kind⟩ path referrer)))
    (other : kind ≠ .enum) (shape : form.typeKind = .struct ∨ form.typeKind = .union)
    (named : form.fields = sortTexts (tree.fieldNames referrer ids)) :
    Family ⟨id, ⟨path, kind⟩, { name := name, deprecated := deprecated, form := .type form }⟩
      (publications (ids.flatMap (tree.fieldActions ⟨path, kind⟩ path referrer))) := by
  have noEnum : form.typeKind ≠ .enum := by
    rcases shape with kind | kind <;> simp [kind]
  refine family_of_type rfl rfl (iff_of_false other noEnum) ?_ ?_
  · intro part member
    obtain ⟨id, deprecated, decl, same⟩ := mem_fields accepted member
    exact ⟨path, id, deprecated, decl, same, by rw [if_neg other]⟩
  · have fields := filter_fields fun part member => by
      obtain ⟨id, deprecated, decl, rfl⟩ := mem_fields accepted member
      rfl
    rw [Form.lists_struct_or_union shape, fields, named, List.map_map]
    exact records_sortTexts names_of_fields

theorem family_of_variant_fields {name : String} {deprecated : Bool}
    (accepted : Accepted (ids.flatMap (tree.variantActions ⟨path, .enum⟩ referrer)))
    (shape : form.typeKind = .enum)
    (named : form.fields = sortTexts (tree.variantFieldNames referrer ids))
    (variants : form.variants = sortTexts ((tree.variants referrer ids).map (·.2.name))) :
    Family ⟨id, ⟨path, .enum⟩, { name := name, deprecated := deprecated, form := .type form }⟩
      (publications (ids.flatMap (tree.variantActions ⟨path, .enum⟩ referrer))) := by
  refine family_of_type rfl rfl (iff_of_true rfl shape) ?_ ?_
  · intro part member
    obtain ⟨variant, known, id, deprecated, decl, same⟩ := mem_variant_fields accepted member
    refine ⟨path ++ [variant], id, deprecated, decl, same, ?_⟩
    rw [if_pos rfl, variants]
    exact ⟨variant, mem_sortTexts.mpr known, rfl⟩
  · have fields := filter_fields fun part member => by
      obtain ⟨_, _, id, deprecated, decl, rfl⟩ := mem_variant_fields accepted member
      rfl
    rw [Form.lists_enum shape, fields, named, List.map_map]
    exact records_sortTexts names_of_variant_fields

end Types

/-! ## Members of traits and implementations -/

/-- What is published of a member of a trait or an implementation. -/
structure Membership (path : List String) (owner : Option Identity) (part : Publication) : Prop where
  placed : part.id.path = path ++ [part.item.name]
  owned : part.item.owner = owner
  kind : part.id.kind ≠ .structField
  itemClass : part.item.itemClass ≠ .field
  method : part.id.kind = .method ↔ part.item.itemClass = .method
  plain : part.item.form.Lists []

section Members

variable {owner : Publication} {parts : List Publication} {parent : String}

theorem membership_of_memberItem? {entry : Entry} {kind : IdKind} {item : Item}
    {owner : Option Identity} (possible : memberItem? entry parent owner = some (kind, item)) :
    Membership path owner ⟨id, ⟨path ++ [item.name], kind⟩, item⟩ := by
  obtain ⟨deprecated, declaration⟩ := entry
  cases declaration <;> cases possible <;> constructor <;>
    simp [methodItem, Item.itemClass, Form.itemClass, Form.Lists]

theorem mem_memberActions {owner : Option Identity}
    (accepted : Accepted (ids.flatMap (tree.memberActions path parent owner referrer)))
    (member : publication ∈
      publications (ids.flatMap (tree.memberActions path parent owner referrer))) :
    Membership path owner publication := by
  rw [publications_flatMap] at member
  obtain ⟨id, listed, published⟩ := List.mem_flatMap.mp member
  obtain ⟨entry, kind, item, _, possible, same⟩ :=
    memberActions_of_accepted (accepted.of_mem_flatMap listed)
  rw [same] at published
  cases List.mem_singleton.mp published
  exact membership_of_memberItem? possible

/-- Members of a block without an owner stand alone. -/
theorem grouped_of_free_members
    (accepted : Accepted (ids.flatMap (tree.memberActions path parent none referrer))) :
    Grouped (publications (ids.flatMap (tree.memberActions path parent none referrer))) := by
  have alone : ∀ part ∈ publications (ids.flatMap (tree.memberActions path parent none referrer)),
      Grouped [part] := by
    intro part member
    have membership := mem_memberActions accepted member
    exact (Family.alone membership.owned membership.plain).grouped
  simpa using Grouped.flatMap alone

/-- Members before the trait or the implementation that owns them make up a family if they are
recorded well. -/
theorem family_of_members (free : owner.item.owner = none) (noType : owner.item.itemClass ≠ .type)
    (noEnum : owner.id.kind ≠ .enum)
    (members : ∀ part ∈ parts, Membership owner.id.path (some owner.id) part)
    (listed : owner.item.form.Lists (parts.map Publication.entry)) : Family owner parts := by
  have untyped : owner.item.form.typeKind? ≠ some .enum := by
    unfold Item.itemClass at noType
    cases form : owner.item.form <;> simp_all [Form.typeKind?, Form.itemClass]
  constructor
  case free => exact free
  case plain => exact fun part member => (members part member).plain
  case listed => exact listed
  case belongs =>
    intro part member
    have membership := members part member
    constructor
    case free => exact free
    case owned => exact membership.owned
    case enum => exact iff_of_false noEnum untyped
    case placed => exact (if_neg noEnum).symm ▸ membership.placed
    case field => exact iff_of_false membership.kind membership.itemClass
    case method => exact membership.method
    case inType => exact fun isType => absurd isType noType

/-- A selection of members by kind has the names of the same selection by class. -/
theorem names_of_selected (byKind : IdKind → Bool) (byClass : ItemClass → Bool)
    (agree : ∀ part ∈ parts, byKind part.id.kind = byClass part.item.itemClass) :
    ((parts.map Publication.entry).filter (byClass ·.2.itemClass)).map (·.2.name) =
      ((parts.map fun part => (part.id.kind, part.item.name)).filter (byKind ·.1)).map Prod.snd := by
  rw [List.filter_map, List.filter_map, List.map_map, List.map_map]
  exact congrArg (List.map _) (List.filter_congr fun part member => (agree part member).symm)

end Members

/-! ## Plans -/

section Plans

variable {deprecated : Bool} {name : String}

theorem grouped_typePlan {parts : List Action} {form : TypeForm} {impls : List Int}
    (family : Family ⟨id, type, { name := name, deprecated := deprecated, form := .type form }⟩
      (publications parts)) :
    Grouped (publications (typePlan id deprecated type name parts form impls).actions) := by
  have made : publications (typePlan id deprecated type name parts form impls).actions =
      publications parts ++
        [⟨id, type, { name := name, deprecated := deprecated, form := .type form }⟩] := by
    rw [typePlan, List.cons_append, publications_visit, publications_append]
    rfl
  rw [made]
  exact family.grouped

theorem grouped_structPlan {decl : StructDecl}
    (accepted : Accepted (tree.structPlan id deprecated path name decl).actions) :
    Grouped (publications (tree.structPlan id deprecated path name decl).actions) :=
  grouped_typePlan (family_of_fields accepted.of_append_left.of_cons nofun (.inl rfl) rfl)

theorem grouped_unionPlan {decl : UnionDecl}
    (accepted : Accepted (tree.unionPlan id deprecated path name decl).actions) :
    Grouped (publications (tree.unionPlan id deprecated path name decl).actions) :=
  grouped_typePlan (family_of_fields accepted.of_append_left.of_cons nofun (.inr rfl) rfl)

theorem grouped_enumPlan {decl : EnumDecl}
    (accepted : Accepted (tree.enumPlan id deprecated path name decl).actions) :
    Grouped (publications (tree.enumPlan id deprecated path name decl).actions) :=
  grouped_typePlan (family_of_variant_fields accepted.of_append_left.of_cons rfl rfl rfl)

theorem grouped_traitPlan {decl : TraitDecl}
    (accepted : Accepted (tree.traitPlan id deprecated path name decl).actions) :
    Grouped (publications (tree.traitPlan id deprecated path name decl).actions) := by
  have accepted := accepted.of_append_left.of_cons
  unfold traitPlan
  dsimp only
  rw [List.cons_append, publications_visit, publications_append, publications_publish]
  refine Family.grouped (family_of_members rfl ?noType ?noEnum ?members ?listed)
  case noType => exact ItemClass.noConfusion
  case noEnum => exact IdKind.noConfusion
  case members => exact fun _ => mem_memberActions accepted
  case listed =>
    refine records_sortTexts ?_
    rw [← names_of_members, List.map_map, List.map_map]
    rfl

theorem lists_traitImplItem {decl : ImplDecl} {trait parent : String} {owner : Option Identity}
    (accepted : Accepted (decl.items.flatMap (tree.memberActions path parent owner id))) :
    (tree.traitImplItem id deprecated decl trait).form.Lists
      ((publications (decl.items.flatMap (tree.memberActions path parent owner id))).map
        Publication.entry) := by
  have method : ∀ part ∈ publications (decl.items.flatMap (tree.memberActions path parent owner id)),
      (part.id.kind = .method ↔ part.item.itemClass = .method) :=
    fun part member => (mem_memberActions accepted member).method
  have names : (publications (decl.items.flatMap (tree.memberActions path parent owner id))).map
      (fun part => (part.id.kind, part.item.name)) = tree.memberNames id decl.items :=
    names_of_members
  refine ⟨records_sortTexts ?methods, records_sortTexts ?members⟩ <;> rw [← names]
  case methods =>
    exact names_of_selected (· = .method) (· = .method) fun part member =>
      decide_eq_decide.mpr (method part member)
  case members =>
    exact names_of_selected (· ≠ .method) (· ≠ .method) fun part member =>
      decide_eq_decide.mpr (not_congr (method part member))

theorem grouped_implPlan {decl : ImplDecl}
    (accepted : Accepted (tree.implPlan id deprecated type decl).actions) :
    Grouped (publications (tree.implPlan id deprecated type decl).actions) := by
  by_cases counts : decl.Counts
  · cases named : decl.trait with
    | none =>
      rw [implPlan_own counts named] at accepted ⊢
      exact grouped_of_free_members accepted.of_cons
    | some trait =>
      rw [implPlan_trait counts named] at accepted ⊢
      have accepted := accepted.of_append_left.of_cons
      rw [List.cons_append, publications_visit, publications_append, publications_publish]
      have members : ∀ part ∈ publications (decl.items.flatMap
          (tree.memberActions (implIdentity decl type trait).path
            (implIdentity decl type trait).display (some (implIdentity decl type trait)) id)),
          Membership (implIdentity decl type trait).path (some (implIdentity decl type trait)) part :=
        fun _ => mem_memberActions accepted
      refine Family.grouped (family_of_members rfl ?noType ?noEnum members ?listed)
      case noType => exact ItemClass.noConfusion
      case noEnum => exact IdKind.noConfusion
      case listed => exact lists_traitImplItem accepted
  · rw [implPlan_passed counts]
    exact .nil

theorem grouped_publishPlan {kind : IdKind} {item : Item} (free : item.owner = none)
    (plain : item.form.Lists []) : Grouped (publications (publishPlan id path kind item).actions) :=
  (Family.alone free plain).grouped

theorem grouped_itemPlan {entry : Entry} {givenName : Option String}
    (accepted : Accepted (tree.itemPlan id entry path givenName).actions) :
    Grouped (publications (tree.itemPlan id entry path givenName).actions) := by
  obtain ⟨deprecated, declaration⟩ := entry
  cases declaration with
  | struct decl => exact grouped_structPlan accepted
  | union decl => exact grouped_unionPlan accepted
  | enum decl => exact grouped_enumPlan accepted
  | trait decl => exact grouped_traitPlan accepted
  | function | method | typedef | constant | static => exact grouped_publishPlan rfl rfl
  | module | inert => exact .nil
  | reexport decl =>
    have mute : publications (reexportPlan id path decl).actions = [] := by
      unfold reexportPlan
      cases decl.target <;> rfl
    show Grouped (publications (reexportPlan id path decl).actions)
    rw [mute]
    exact .nil
  | variant | structField | impl | assocType | assocConst =>
    exact absurd (List.mem_cons_of_mem _ List.mem_cons_self) (accepted _)

end Plans

/-- Every plan that is not refused publishes families. -/
theorem grouped_plan {task : Task} (accepted : Accepted (tree.plan task).actions) :
    Grouped (publications (tree.plan task).actions) := by
  cases answer_of_accepted accepted with
  | idle _ _ mute =>
    rw [mute]
    exact .nil
  | item _ _ _ same =>
    rw [same] at accepted ⊢
    exact grouped_itemPlan accepted
  | splice _ _ same =>
    rw [same]
    exact .nil
  | block _ _ _ same =>
    rw [same] at accepted ⊢
    exact grouped_implPlan accepted

/-- Members and owners agree in the snapshot of every tree. -/
theorem kept_of_ofTree? {s : Snapshot} (translated : Snapshot.ofTree? tree = .ok s) : s.Kept := by
  obtain ⟨answered, final, run, rfl⟩ := ofTree?_eq_ok_iff.mp translated
  exact Snapshot.kept_of_grouped run.entries_of_start
    (Grouped.flatMap fun task member => grouped_plan (run.accepted member))

/-- **Owners keep their members.** In the snapshot of a tree, the owner of a member is there and has no
owner itself, and the path of the member is the owner's path with the member's name, after a variant
if the owner is an enumeration. The names that an item records are those of the items that it owns, in
order, each as often as it occurs. -/
theorem owners_keep_members {s : Snapshot} (translated : Snapshot.ofTree? tree = .ok s) :
    (∀ id member owner, s.get? id = some member → member.owner = some owner →
      ∃ holder, s.get? owner = some holder ∧ holder.owner = none ∧
        if owner.kind = .enum then
          ∃ variant ∈ holder.form.variants, id.path = owner.path ++ [variant, member.name]
        else id.path = owner.path ++ [member.name]) ∧
    ∀ owner holder, s.get? owner = some holder → holder.form.Lists (s.members owner) := by
  have kept := kept_of_ofTree? translated
  refine ⟨fun id member owner found owned => ?_, kept.listed⟩
  obtain ⟨holder, held, belongs⟩ :=
    kept.held (id, member) (Snapshot.get?_eq_some_iff.mp found) owner owned
  exact ⟨holder, held, belongs.free, belongs.placed⟩

/-- An enumeration with one field in one variant. -/
def circleTree : Tree where
  index := [
    (0, { declaration := .module { name := "demo", items := [1] } }),
    (1, { declaration := .enum { name := "Shape", variants := [2] } }),
    (2, { declaration := .variant { name := "Circle", shape := .struct, fields := [3] } }),
    (3, { declaration := .structField { name := "radius", type := "f64" } })]
  root := { name := "demo", items := [1] }
  rooted := rfl

theorem owners_keep_members_circle :
    ∃ s, Snapshot.ofTree? circleTree = .ok s ∧
      ∃ holder, s.get? ⟨["Shape"], .enum⟩ = some holder ∧ holder.owner = none ∧
        holder.form.Lists [(⟨["Shape", "Circle", "radius"], .structField⟩,
          { name := "radius", owner := some ⟨["Shape"], .enum⟩, form := .field "f64" })] := by
  have run : ∃ final, Run circleTree .start circleTree.rootTasks [⟨1, [], .listed 0⟩] final ∧
      final.published.get? ⟨["Shape", "Circle", "radius"], .structField⟩ =
        some { name := "radius", owner := some ⟨["Shape"], .enum⟩, form := .field "f64" } ∧
      final.published.members ⟨["Shape"], .enum⟩ =
        [(⟨["Shape", "Circle", "radius"], .structField⟩,
          { name := "radius", owner := some ⟨["Shape"], .enum⟩, form := .field "f64" })] :=
    ⟨_, .answer (by decide) rfl .done, rfl, rfl⟩
  obtain ⟨final, run, found, members⟩ := run
  have translated : Snapshot.ofTree? circleTree = .ok final.published :=
    ofTree?_eq_ok_iff.mpr ⟨_, final, run, rfl⟩
  obtain ⟨held, listed⟩ := owners_keep_members translated
  obtain ⟨holder, there, free, _⟩ := held _ _ _ found rfl
  exact ⟨final.published, translated, holder, there, free, members ▸ listed _ holder there⟩

end ApiDelta.Tree
