import ApiDelta.Proofs.Tellings

/-!
What the entries of a tree refer to, and in which role. A role says what is expected of an entry: that
it is an item, a field, a variant, a block of implementations or a member, or that a re-export may aim at
it. Parts are met together with the entry that holds them. Everything else is asked for by a task, and
every task of a walk stems from such a reference.
-/
namespace ApiDelta.Tree

/-- What an entry is for one that refers to it. A re-export aims at an entry for itself or, if it is one
of everything, for its contents. -/
inductive Role
  | item
  | field
  | variant
  | impl
  | member
  | target
  | contents
  deriving DecidableEq, Repr

namespace Role

/-- What stands in a list of its owner. A re-export may aim at something outside the crate. -/
def IsListed : Role → Prop
  | .target | .contents => False
  | _ => True

/-- What is met together with its owner, whether or not it has been visited. -/
def IsPart : Role → Prop
  | .field | .variant | .member => True
  | _ => False

/-- The declarations that can play a role. A module may list blocks of implementations, which it passes
over, and a re-export of everything may aim at anything. -/
def Admits : Role → Declaration → Prop
  | .item, declaration => ¬declaration.OnlyPart
  | .field, .structField _ => True
  | .variant, .variant _ => True
  | .impl, .impl _ => True
  | .member, .function _ | .member, .method _ | .member, .assocType _ | .member, .assocConst _ => True
  | .target, .impl _ => False
  | .target, declaration => ¬declaration.OnlyPart
  | .contents, _ => True
  | _, _ => False

/-- Where a declaration that cannot play a role is said to be. -/
def place (role : Role) (referrer : Int) (declaration : Declaration) : Place :=
  match role, declaration with
  | .field, _ => .fieldOf referrer
  | .variant, _ => .variantOf referrer
  | .impl, _ => .implOf referrer
  | .member, _ => .memberOf referrer
  | .target, .impl _ => .reexportedBy referrer
  | _, _ => .inModule

end Role

structure Reference where
  referrer : Int
  role : Role
  id : Int
  deriving DecidableEq, Repr

/-- The references of one entry to several, all in one role. -/
def Role.references (role : Role) (referrer : Int) (ids : List Int) : List Reference :=
  ids.map fun id => ⟨referrer, role, id⟩

/-- The references of an entry to its parts. A block of implementations that does not count has none. -/
def held (tree : Tree) (id : Int) : List Reference :=
  match tree.declaration? id with
  | some (.struct decl) => Role.field.references id decl.fields
  | some (.union decl) => Role.field.references id decl.fields
  | some (.enum decl) => Role.variant.references id decl.variants
  | some (.variant decl) => Role.field.references id decl.fields
  | some (.trait decl) => Role.member.references id decl.items
  | some (.impl decl) => if decl.Counts then Role.member.references id decl.items else []
  | _ => []

/-- The references of an entry that are asked for by tasks. -/
def sought (tree : Tree) (id : Int) : List Reference :=
  match tree.declaration? id with
  | some (.module decl) => Role.item.references id decl.items
  | some (.struct decl) => Role.impl.references id decl.impls
  | some (.union decl) => Role.impl.references id decl.impls
  | some (.enum decl) => Role.impl.references id decl.impls
  | some (.reexport decl) =>
    (if decl.glob then Role.contents else Role.target).references id decl.target.toList
  | _ => []

def references (tree : Tree) (id : Int) : List Reference :=
  tree.held id ++ tree.sought id

/-- What a reference leads to can play its role. One that leads nowhere must stand in no list. -/
def Fits (tree : Tree) (reference : Reference) : Prop :=
  match tree.declaration? reference.id with
  | none => ¬reference.role.IsListed
  | some declaration => reference.role.Admits declaration

/-- What is said of a reference that does not fit. -/
def fault (tree : Tree) (reference : Reference) : Problem :=
  match tree.declaration? reference.id with
  | none => .dangling reference.id reference.referrer
  | some declaration =>
    .misplaced reference.id declaration.kind (reference.role.place reference.referrer declaration)

section References

variable {tree : Tree} {id referrer : Int} {role : Role} {ids : List Int} {reference : Reference}
  {declaration : Declaration}

theorem Role.mem_references :
    reference ∈ role.references referrer ids ↔ ∃ id ∈ ids, reference = ⟨referrer, role, id⟩ := by
  simp only [references, List.mem_map, eq_comm]

theorem Role.IsPart.isListed (isPart : role.IsPart) : role.IsListed := by
  cases role <;> trivial

theorem fits_of_declared (declared : tree.declaration? reference.id = some declaration) :
    tree.Fits reference ↔ reference.role.Admits declaration := by
  simp only [Fits, declared]

theorem fault_of_declared (declared : tree.declaration? reference.id = some declaration) :
    tree.fault reference = .misplaced reference.id declaration.kind
      (reference.role.place reference.referrer declaration) := by
  simp only [fault, declared]

theorem fits_of_absent (absent : tree.declaration? reference.id = none) :
    tree.Fits reference ↔ ¬reference.role.IsListed := by
  simp only [Fits, absent]

theorem fault_of_absent (absent : tree.declaration? reference.id = none) :
    tree.fault reference = .dangling reference.id reference.referrer := by
  simp only [fault, absent]

/-- What stands in a list and fits is there. -/
theorem declared_of_fits (fits : tree.Fits reference) (listed : reference.role.IsListed) :
    ∃ declaration, tree.declaration? reference.id = some declaration ∧
      reference.role.Admits declaration := by
  cases declared : tree.declaration? reference.id with
  | none => exact absurd listed ((fits_of_absent declared).mp fits)
  | some declaration => exact ⟨declaration, rfl, (fits_of_declared declared).mp fits⟩

/-- References to parts start from the entry, play the role of a part and lead to a part of it. -/
theorem leads_of_held (held : reference ∈ tree.held id) :
    reference.referrer = id ∧ reference.role.IsPart ∧ tree.Leads id reference.id := by
  have part {role : Role} {ids : List Int} {declaration : Declaration}
      (member : reference ∈ role.references id ids) (isPart : role.IsPart)
      (declared : tree.declaration? id = some declaration) (parts : ids ⊆ declaration.parts) :
      reference.referrer = id ∧ reference.role.IsPart ∧ tree.Leads id reference.id := by
    obtain ⟨child, inside, rfl⟩ := Role.mem_references.mp member
    exact ⟨rfl, isPart, .part declared (parts inside)⟩
  unfold Tree.held at held
  split at held
  · exact part held trivial ‹_› (List.subset_append_left _ _)
  · exact part held trivial ‹_› (List.subset_append_left _ _)
  · exact part held trivial ‹_› (List.subset_append_left _ _)
  · exact part held trivial ‹_› (List.Subset.refl _)
  · exact part held trivial ‹_› (List.Subset.refl _)
  · rename_i decl declared
    split at held
    · rename_i counts
      refine part held trivial declared ?_
      simp only [Declaration.parts, if_pos counts, List.Subset.refl]
    · cases held
  · cases held

/-- References that tasks ask for start from the entry and do not play the role of a part. -/
theorem referrer_of_sought (sought : reference ∈ tree.sought id) :
    reference.referrer = id ∧ ¬reference.role.IsPart := by
  have outer {role : Role} {ids : List Int} (member : reference ∈ role.references id ids)
      (outer : ¬role.IsPart) : reference.referrer = id ∧ ¬reference.role.IsPart := by
    obtain ⟨child, _, rfl⟩ := Role.mem_references.mp member
    exact ⟨rfl, outer⟩
  unfold Tree.sought at sought
  split at sought
  · exact outer sought not_false
  · exact outer sought not_false
  · exact outer sought not_false
  · exact outer sought not_false
  · refine outer sought ?_
    split <;> exact not_false
  · cases sought

theorem referrer_of_references (refers : reference ∈ tree.references id) :
    reference.referrer = id := by
  rcases List.mem_append.mp refers with held | sought
  · exact (leads_of_held held).1
  · exact (referrer_of_sought sought).1

/-- Only what is there refers to anything. -/
theorem mem_index_of_references (refers : reference ∈ tree.references id) :
    ∃ entry, (id, entry) ∈ tree.index := by
  cases found : tree.entry? id with
  | some entry => exact ⟨entry, mem_index_of_entry? found⟩
  | none =>
    have nowhere : tree.declaration? id = none := by
      rw [declaration?, found]
      rfl
    simp only [references, held, sought, nowhere, List.append_nil, List.not_mem_nil] at refers

theorem exists_reference_of_part (declared : tree.declaration? referrer = some declaration)
    (part : id ∈ declaration.parts) : ∃ reference ∈ tree.references referrer, reference.id = id := by
  simp only [references, held, sought, declared]
  cases declaration with
  | struct | union | enum =>
    rcases List.mem_append.mp part with inner | impl
    · exact ⟨_, List.mem_append_left _ (Role.mem_references.mpr ⟨id, inner, rfl⟩), rfl⟩
    · exact ⟨_, List.mem_append_right _ (Role.mem_references.mpr ⟨id, impl, rfl⟩), rfl⟩
  | variant | trait =>
    exact ⟨_, List.mem_append_left _ (Role.mem_references.mpr ⟨id, part, rfl⟩), rfl⟩
  | impl decl =>
    by_cases counts : decl.Counts
    · simp only [Declaration.parts, if_pos counts] at part ⊢
      exact ⟨_, List.mem_append_left _ (Role.mem_references.mpr ⟨id, part, rfl⟩), rfl⟩
    · simp only [Declaration.parts, if_neg counts, List.not_mem_nil] at part
  | _ => cases part

/-- Every link is a reference. -/
theorem exists_reference_of_leads (leads : tree.Leads referrer id) :
    ∃ reference ∈ tree.references referrer, reference.id = id := by
  cases leads with
  | part declared member => exact exists_reference_of_part declared member
  | item declared member =>
    simp only [references, held, sought, declared]
    exact ⟨_, List.mem_append_right _ (Role.mem_references.mpr ⟨id, member, rfl⟩), rfl⟩
  | named declared single aims | spliced declared single aims =>
    simp only [references, held, sought, declared, single, aims]
    exact ⟨_, List.mem_singleton_self _, rfl⟩

/-- What fits as a part asks for nothing by tasks. -/
theorem sought_eq_nil_of_fits (fits : tree.Fits reference) (isPart : reference.role.IsPart) :
    tree.sought reference.id = [] := by
  obtain ⟨referrer, role, id⟩ := reference
  obtain ⟨declaration, declared, admits⟩ := declared_of_fits fits isPart.isListed
  simp only [sought, declared]
  cases role <;> cases declaration <;> first | rfl | exact isPart.elim | exact admits.elim

/-- Fields and members that fit have no parts. -/
theorem held_eq_nil_of_fits (fits : tree.Fits reference) (isPart : reference.role.IsPart)
    (noVariant : reference.role ≠ .variant) : tree.held reference.id = [] := by
  obtain ⟨referrer, role, id⟩ := reference
  obtain ⟨declaration, declared, admits⟩ := declared_of_fits fits isPart.isListed
  simp only [held, declared]
  cases role <;> cases declaration <;>
    first | rfl | exact isPart.elim | exact admits.elim | exact absurd rfl noVariant

/-- The parts of a part that fits have no parts themselves. -/
theorem held_eq_nil_of_held {inner : Reference} (fits : tree.Fits reference)
    (isPart : reference.role.IsPart) (held : inner ∈ tree.held reference.id)
    (inside : tree.Fits inner) : tree.held inner.id = [] := by
  obtain ⟨_, innerPart, _⟩ := leads_of_held held
  refine held_eq_nil_of_fits inside innerPart fun variant => ?_
  by_cases single : reference.role = .variant
  · obtain ⟨referrer, role, id⟩ := reference
    cases single
    obtain ⟨declaration, declared, admits⟩ := declared_of_fits fits trivial
    cases declaration with
    | variant decl =>
      simp only [Tree.held, declared] at held
      obtain ⟨_, _, rfl⟩ := Role.mem_references.mp held
      cases variant
    | _ => exact admits
  · rw [held_eq_nil_of_fits fits isPart single] at held
    cases held

end References

/-! ## Tasks -/

/-- A task asks for what a reference leads to, in the way that its role calls for. -/
inductive Stems : Reference → Task → Prop where
  | item {referrer id : Int} {path : List String} :
      Stems ⟨referrer, .item, id⟩ ⟨id, path, .listed referrer⟩
  | target {referrer id : Int} {path : List String} {name source : String} :
      Stems ⟨referrer, .target, id⟩ ⟨id, path, .named referrer name source⟩
  | contents {referrer id : Int} {path : List String} {source : String} :
      Stems ⟨referrer, .contents, id⟩ ⟨id, path, .spliced source⟩
  | impl {referrer id : Int} {path : List String} {type : Identity} :
      Stems ⟨referrer, .impl, id⟩ ⟨id, path, .attached type referrer⟩

/-- Tasks ask for what references lead to: each task stems from a reference, and each reference has its
task. -/
structure Asks (references : List Reference) (tasks : List Task) : Prop where
  stems : ∀ task ∈ tasks, ∃ reference ∈ references, Stems reference task
  complete : ∀ reference ∈ references, ∃ task ∈ tasks, Stems reference task

section Tasks

variable {tree : Tree} {id : Int} {path : List String} {reference : Reference} {task : Task}

theorem Stems.id_eq (stems : Stems reference task) : reference.id = task.id := by
  cases stems <;> rfl

theorem Asks.nil : Asks [] [] :=
  ⟨nofun, nofun⟩

theorem Asks.map {role : Role} {referrer : Int} {make : Int → Task} (ids : List Int)
    (each : ∀ id, Stems ⟨referrer, role, id⟩ (make id)) :
    Asks (role.references referrer ids) (ids.map make) where
  stems := by
    intro task member
    obtain ⟨id, listed, rfl⟩ := List.mem_map.mp member
    exact ⟨_, List.mem_map_of_mem listed, each id⟩
  complete := by
    intro reference member
    obtain ⟨id, listed, rfl⟩ := Role.mem_references.mp member
    exact ⟨_, List.mem_map_of_mem listed, each id⟩

theorem asks_listedTasks (path : List String) (id : Int) (items : List Int) :
    Asks (Role.item.references id items) (listedTasks path id items) :=
  .map items fun _ => .item

/-- The further tasks of an item's plan ask for all that the item refers to and that is no part. -/
theorem asks_itemPlan {entry : Entry} {givenName : Option String}
    (found : tree.entry? id = some entry) :
    Asks (tree.sought id) (tree.itemPlan id entry path givenName).next := by
  obtain ⟨deprecated, declaration⟩ := entry
  simp only [sought, declared_of_found found]
  cases declaration with
  | module decl => exact asks_listedTasks _ id decl.items
  | struct | union | enum => exact .map _ fun _ => .impl
  | reexport decl =>
    simp only [itemPlan, reexportPlan]
    cases decl.target with
    | none => exact .nil
    | some target =>
      cases decl.glob with
      | true => exact .map [target] fun _ => .contents
      | false => exact .map [target] fun _ => .target
  | _ => exact .nil

theorem implPlan_next {deprecated : Bool} {type : Identity} {decl : ImplDecl} :
    (tree.implPlan id deprecated type decl).next = [] := by
  by_cases counts : decl.Counts
  · cases named : decl.trait with
    | none => rw [implPlan_own counts named]
    | some trait => rw [implPlan_trait counts named]
  · rw [implPlan_passed counts]

end Tasks

end ApiDelta.Tree
