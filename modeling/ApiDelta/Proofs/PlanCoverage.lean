import ApiDelta.Proofs.Links

/-!
How much a single plan accounts for. A plan visits an entry together with its parts, and whatever else
these lead to is asked for by a further task. Each publication of a plan tells of an entry that the
plan visits, and each public entry among these is told of.
-/
namespace ApiDelta.Tree

/-! ## Publications and their sources -/

/-- The declarations that belong to the public interface. -/
def Declaration.IsPublic : Declaration → Prop
  | .function _ | .method _ | .struct _ | .union _ | .enum _ | .typedef _ | .trait _ | .constant _
  | .static _ | .structField _ | .assocType _ | .assocConst _ => True
  | .impl decl => decl.trait.isSome ∧ decl.Counts
  | .module _ | .variant _ | .reexport _ | .inert _ => False

/-- The form of an item repeats what the declaration says, apart from the names of parts. A function
is a method wherever a type or a trait lists it. -/
def Declaration.Yields : Declaration → Form → Prop
  | .function decl, .function callable => callable = decl.callable
  | .function decl, .method _ callable hasBody =>
    callable = decl.callable ∧ hasBody = decl.hasBody
  | .method decl, .method _ callable hasBody => callable = decl.callable ∧ hasBody = decl.hasBody
  | .struct decl, .type form =>
    form.typeKind = .struct ∧ form.structKind = some decl.shape.structKind ∧
      form.generics = decl.generics ∧ form.aliased = none
  | .union decl, .type form =>
    form.typeKind = .union ∧ form.structKind = none ∧ form.generics = decl.generics ∧
      form.aliased = none
  | .enum decl, .type form =>
    form.typeKind = .enum ∧ form.structKind = none ∧ form.generics = decl.generics ∧
      form.aliased = none
  | .typedef decl, .type form =>
    form = { typeKind := .typedef, generics := decl.generics, aliased := some decl.type }
  | .structField decl, .field type => type = decl.type
  | .trait decl, .traitDef form =>
    form.generics = decl.generics ∧ form.bounds = decl.bounds ∧ form.isUnsafe = decl.isUnsafe ∧
      form.isAuto = decl.isAuto
  | .impl decl, .traitImpl form =>
    decl.trait = some form.trait ∧ form.forType = decl.forType ∧ form.generics = decl.generics ∧
      form.isUnsafe = decl.isUnsafe ∧ form.negative = decl.negative
  | .assocType decl, .assocType generics bounds default =>
    generics = decl.generics ∧ bounds = decl.bounds ∧ default = decl.default
  | .assocConst decl, .assocConst type default => type = decl.type ∧ default = decl.default
  | .constant decl, .constant type value isStatic mutable =>
    type = decl.type ∧ value = decl.value ∧ isStatic = false ∧ mutable = false
  | .static decl, .constant type value isStatic mutable =>
    type = decl.type ∧ value = decl.value ∧ isStatic = true ∧ mutable = decl.mutable
  | _, _ => False

/-- A publication tells of the entry under its source. -/
def Portrays (tree : Tree) (publication : Publication) : Prop :=
  ∃ entry, tree.entry? publication.source = some entry ∧
    publication.item.deprecated = entry.deprecated ∧
    entry.declaration.Yields publication.item.form

/-! ## Coverage -/

/-- What actions and further tasks account for when they start from one entry: the entry and nothing
that it does not lead to is visited, every link from there is followed by an action or left to a task,
and what is published tells of what is visited. -/
structure Covers (tree : Tree) (origin : Int) (actions : List Action) (next : List Task) : Prop where
  begun : .visit origin ∈ actions
  within : ∀ id, .visit id ∈ actions → Relation.ReflTransGen tree.Leads origin id
  followed : ∀ id child, .visit id ∈ actions → tree.Leads id child →
    .visit child ∈ actions ∨ ∃ task ∈ next, task.id = child ∧ tree.Heeds task
  onward : ∀ task ∈ next, tree.Heeds task → tree.Leads origin task.id
  told : ∀ id declaration, .visit id ∈ actions → tree.declaration? id = some declaration →
    declaration.IsPublic → ∃ publication, .publish publication ∈ actions ∧ publication.source = id
  sourced : ∀ publication, .publish publication ∈ actions →
    .visit publication.source ∈ actions ∧ tree.Portrays publication

section Coverage

variable {tree : Tree} {id : Int} {declaration : Declaration}

/-- Actions cover an entry if they visit it, cover each of its parts, and close with publications of
the entry itself. -/
theorem Covers.assemble {parts : List Int} {make : Int → List Action} {closing : List Action}
    {next : List Task} (declared : tree.declaration? id = some declaration)
    (links : ∀ child, tree.Leads id child ↔
      child ∈ parts ∨ ∃ task ∈ next, task.id = child ∧ tree.Heeds task)
    (covered : ∀ part ∈ parts, tree.Covers part (make part) [])
    (closes : ∀ action ∈ closing, ∀ other, action ≠ .visit other)
    (portrays : ∀ publication, .publish publication ∈ closing →
      publication.source = id ∧ tree.Portrays publication)
    (tells : declaration.IsPublic → ∃ publication, .publish publication ∈ closing) :
    tree.Covers id (.visit id :: parts.flatMap make ++ closing) next := by
  -- an entry visited here is the origin or stands in the actions of one part
  have visited : ∀ other, .visit other ∈ .visit id :: parts.flatMap make ++ closing ↔
      other = id ∨ ∃ part ∈ parts, .visit other ∈ make part := by
    intro other
    simp only [List.cons_append, List.mem_cons, Action.visit.injEq, List.mem_append,
      List.mem_flatMap]
    constructor
    · rintro (same | inside | outside)
      · exact .inl same
      · exact .inr inside
      · exact absurd rfl (closes _ outside other)
    · rintro (same | inside)
      · exact .inl same
      · exact .inr (.inl inside)
  have published : ∀ publication, .publish publication ∈ .visit id :: parts.flatMap make ++ closing ↔
      (∃ part ∈ parts, .publish publication ∈ make part) ∨ .publish publication ∈ closing := by
    intro publication
    simp only [List.cons_append, List.mem_cons, reduceCtorEq, false_or, List.mem_append,
      List.mem_flatMap]
  constructor
  case begun => exact (visited id).mpr (.inl rfl)
  case within =>
    intro other seen
    rcases (visited other).mp seen with rfl | ⟨part, member, inside⟩
    · exact .refl
    · exact .head ((links part).mpr (.inl member)) ((covered part member).within other inside)
  case followed =>
    intro other child seen leads
    rcases (visited other).mp seen with rfl | ⟨part, member, inside⟩
    · rcases (links child).mp leads with member | later
      · exact .inl ((visited child).mpr (.inr ⟨child, member, (covered child member).begun⟩))
      · exact .inr later
    · rcases (covered part member).followed other child inside leads with within | ⟨_, none, _⟩
      · exact .inl ((visited child).mpr (.inr ⟨part, member, within⟩))
      · cases none
  case onward => exact fun task member heeds => (links task.id).mpr (.inr ⟨task, member, rfl, heeds⟩)
  case told =>
    intro other known seen declared' isPublic
    rcases (visited other).mp seen with rfl | ⟨part, member, inside⟩
    · rw [declared] at declared'
      cases declared'
      obtain ⟨publication, closing⟩ := tells isPublic
      exact ⟨publication, (published _).mpr (.inr closing), (portrays publication closing).1⟩
    · obtain ⟨publication, made, source⟩ :=
        (covered part member).told other known inside declared' isPublic
      exact ⟨publication, (published _).mpr (.inl ⟨part, member, made⟩), source⟩
  case sourced =>
    intro publication made
    rcases (published publication).mp made with ⟨part, member, inside⟩ | closing
    · obtain ⟨seen, portrays⟩ := (covered part member).sourced publication inside
      exact ⟨(visited _).mpr (.inr ⟨part, member, seen⟩), portrays⟩
    · obtain ⟨source, portrays⟩ := portrays publication closing
      exact ⟨(visited _).mpr (.inl source), portrays⟩

/-- An entry that is published after its parts is covered. -/
theorem Covers.owner {parts : List Int} {make : Int → List Action} {next : List Task}
    {publication : Publication} (declared : tree.declaration? id = some declaration)
    (links : ∀ child, tree.Leads id child ↔
      child ∈ parts ∨ ∃ task ∈ next, task.id = child ∧ tree.Heeds task)
    (covered : ∀ part ∈ parts, tree.Covers part (make part) [])
    (source : publication.source = id) (portrays : tree.Portrays publication) :
    tree.Covers id (.visit id :: parts.flatMap make ++ [.publish publication]) next := by
  have portrayed : ∀ other, .publish other ∈ [Action.publish publication] →
      other.source = id ∧ tree.Portrays other := by
    intro other member
    cases List.mem_singleton.mp member
    exact ⟨source, portrays⟩
  exact Covers.assemble declared links covered (by simp) portrayed
    fun _ => ⟨publication, List.mem_singleton_self _⟩

/-- Without further tasks, an entry leads to its parts and nothing else. -/
theorem links_of_parts (declared : tree.declaration? id = some declaration)
    (noModule : ∀ decl, declaration ≠ .module decl)
    (noReexport : ∀ decl, declaration ≠ .reexport decl) (child : Int) :
    tree.Leads id child ↔
      child ∈ declaration.parts ∨ ∃ task ∈ ([] : List Task), task.id = child ∧ tree.Heeds task := by
  rw [leads_iff_mem_parts declared noModule noReexport]
  simp

/-- An entry that is not public itself is covered when its parts are. -/
theorem Covers.silent {parts : List Int} {make : Int → List Action}
    (declared : tree.declaration? id = some declaration)
    (noModule : ∀ decl, declaration ≠ .module decl)
    (noReexport : ∀ decl, declaration ≠ .reexport decl) (whole : declaration.parts = parts)
    (covered : ∀ part ∈ parts, tree.Covers part (make part) []) (hidden : ¬declaration.IsPublic) :
    tree.Covers id (.visit id :: parts.flatMap make) [] := by
  have links := links_of_parts declared noModule noReexport
  rw [whole] at links
  have covers := Covers.assemble declared links covered
    (fun action none => absurd none List.not_mem_nil)
    (fun publication none => absurd none List.not_mem_nil) (absurd · hidden)
  rwa [List.append_nil] at covers

/-- An entry without parts that is not public is covered by a visit and by tasks for all that it leads
to. -/
theorem Covers.bare {closing : List Action} {next : List Task}
    (declared : tree.declaration? id = some declaration)
    (links : ∀ child, tree.Leads id child ↔ ∃ task ∈ next, task.id = child ∧ tree.Heeds task)
    (skips : ∀ action ∈ closing, ∃ skipped, action = .skip skipped)
    (hidden : ¬declaration.IsPublic) : tree.Covers id (.visit id :: closing) next := by
  have links' : ∀ child, tree.Leads id child ↔
      child ∈ ([] : List Int) ∨ ∃ task ∈ next, task.id = child ∧ tree.Heeds task := by
    intro child
    rw [links child]
    simp
  have covered : ∀ part ∈ ([] : List Int), tree.Covers part ((fun _ => []) part) [] := nofun
  refine Covers.assemble declared links' covered ?_ ?_ (absurd · hidden)
  · intro action member other same
    obtain ⟨skipped, skip⟩ := skips action member
    cases skip.symm.trans same
  · intro publication member
    obtain ⟨skipped, skip⟩ := skips _ member
    cases skip

/-- An entry that leads nowhere needs no tasks. -/
theorem links_of_none (declared : tree.declaration? id = some declaration)
    (noModule : ∀ decl, declaration ≠ .module decl)
    (noReexport : ∀ decl, declaration ≠ .reexport decl) (whole : declaration.parts = [])
    (child : Int) :
    tree.Leads id child ↔ ∃ task ∈ ([] : List Task), task.id = child ∧ tree.Heeds task := by
  rw [leads_iff_mem_parts declared noModule noReexport, whole]
  simp

/-- An entry without parts is covered by its publication. -/
theorem Covers.leaf {publication : Publication} (declared : tree.declaration? id = some declaration)
    (noModule : ∀ decl, declaration ≠ .module decl)
    (noReexport : ∀ decl, declaration ≠ .reexport decl) (whole : declaration.parts = [])
    (source : publication.source = id) (portrays : tree.Portrays publication) :
    tree.Covers id [.visit id, .publish publication] [] := by
  have links := links_of_parts declared noModule noReexport
  rw [whole] at links
  have covered : ∀ part ∈ ([] : List Int), tree.Covers part ((fun _ => []) part) [] := nofun
  exact Covers.owner declared links covered source portrays

/-! ## Parts -/

variable {type : Identity} {path : List String} {referrer : Int}

theorem covers_fieldActions (accepted : Accepted (tree.fieldActions type path referrer id)) :
    tree.Covers id (tree.fieldActions type path referrer id) [] := by
  obtain ⟨deprecated, decl, found, same⟩ := fieldActions_of_accepted accepted
  rw [same]
  exact .leaf (declared_of_found found) nofun nofun rfl rfl ⟨_, found, rfl, rfl⟩

theorem covers_variantActions (accepted : Accepted (tree.variantActions type referrer id)) :
    tree.Covers id (tree.variantActions type referrer id) [] := by
  obtain ⟨deprecated, decl, found, same⟩ := variantActions_of_accepted accepted
  rw [same] at accepted ⊢
  have declared := declared_of_found found
  have fields : ∀ field ∈ decl.fields,
      tree.Covers field (tree.fieldActions type (type.path ++ [decl.name]) id field) [] :=
    fun field member => covers_fieldActions (accepted.of_cons.of_mem_flatMap member)
  exact Covers.silent declared nofun nofun rfl fields not_false

theorem portrays_of_memberItem? {entry : Entry} {kind : IdKind} {item : Item} {parent : String}
    {owner : Option Identity} (found : tree.entry? id = some entry)
    (possible : memberItem? entry parent owner = some (kind, item)) :
    tree.Portrays ⟨id, ⟨path ++ [item.name], kind⟩, item⟩ := by
  refine ⟨entry, found, ?_⟩
  obtain ⟨deprecated, declaration⟩ := entry
  cases declaration <;> cases possible <;> exact ⟨rfl, by simp [Declaration.Yields, methodItem]⟩

theorem covers_memberActions {parent : String} {owner : Option Identity}
    (accepted : Accepted (tree.memberActions path parent owner referrer id)) :
    tree.Covers id (tree.memberActions path parent owner referrer id) [] := by
  obtain ⟨entry, kind, item, found, possible, same⟩ := memberActions_of_accepted accepted
  rw [same]
  have portrays : tree.Portrays ⟨id, ⟨path ++ [item.name], kind⟩, item⟩ :=
    portrays_of_memberItem? found possible
  obtain ⟨deprecated, declaration⟩ := entry
  cases declaration <;> cases possible <;>
    exact .leaf (declared_of_found found) nofun nofun rfl rfl portrays

/-! ## Plans -/

variable {deprecated : Bool}

/-- A type is covered by its plan if its parts are; its implementations are left to tasks. -/
theorem covers_typePlan {name : String} {form : TypeForm} {parts impls : List Int}
    {make : Int → List Action} (found : tree.entry? id = some ⟨deprecated, declaration⟩)
    (noModule : ∀ decl, declaration ≠ .module decl)
    (noReexport : ∀ decl, declaration ≠ .reexport decl) (whole : declaration.parts = parts ++ impls)
    (yields : declaration.Yields (.type form))
    (covered : ∀ part ∈ parts, tree.Covers part (make part) []) :
    tree.Covers id (typePlan id deprecated type name (parts.flatMap make) form impls).actions
      (typePlan id deprecated type name (parts.flatMap make) form impls).next := by
  have declared := declared_of_found found
  have links : ∀ child, tree.Leads id child ↔ child ∈ parts ∨
      ∃ task ∈ impls.map fun impl => ⟨impl, type.path, .attached type id⟩,
        task.id = child ∧ tree.Heeds task := by
    intro child
    rw [leads_iff_mem_parts declared noModule noReexport, whole, List.mem_append]
    simp
  exact Covers.owner declared links covered rfl ⟨_, found, rfl, yields⟩

theorem covers_structPlan {name : String} {decl : StructDecl}
    (found : tree.entry? id = some ⟨deprecated, .struct decl⟩)
    (accepted : Accepted (tree.structPlan id deprecated path name decl).actions) :
    tree.Covers id (tree.structPlan id deprecated path name decl).actions
      (tree.structPlan id deprecated path name decl).next :=
  covers_typePlan found nofun nofun rfl ⟨rfl, rfl, rfl, rfl⟩ fun _ member =>
    covers_fieldActions (accepted.of_append_left.of_cons.of_mem_flatMap member)

theorem covers_unionPlan {name : String} {decl : UnionDecl}
    (found : tree.entry? id = some ⟨deprecated, .union decl⟩)
    (accepted : Accepted (tree.unionPlan id deprecated path name decl).actions) :
    tree.Covers id (tree.unionPlan id deprecated path name decl).actions
      (tree.unionPlan id deprecated path name decl).next :=
  covers_typePlan found nofun nofun rfl ⟨rfl, rfl, rfl, rfl⟩ fun _ member =>
    covers_fieldActions (accepted.of_append_left.of_cons.of_mem_flatMap member)

theorem covers_enumPlan {name : String} {decl : EnumDecl}
    (found : tree.entry? id = some ⟨deprecated, .enum decl⟩)
    (accepted : Accepted (tree.enumPlan id deprecated path name decl).actions) :
    tree.Covers id (tree.enumPlan id deprecated path name decl).actions
      (tree.enumPlan id deprecated path name decl).next :=
  covers_typePlan found nofun nofun rfl ⟨rfl, rfl, rfl, rfl⟩ fun _ member =>
    covers_variantActions (accepted.of_append_left.of_cons.of_mem_flatMap member)

theorem covers_traitPlan {name : String} {decl : TraitDecl}
    (found : tree.entry? id = some ⟨deprecated, .trait decl⟩)
    (accepted : Accepted (tree.traitPlan id deprecated path name decl).actions) :
    tree.Covers id (tree.traitPlan id deprecated path name decl).actions
      (tree.traitPlan id deprecated path name decl).next :=
  Covers.owner (declared_of_found found) (links_of_parts (declared_of_found found) nofun nofun)
    (fun _ member => covers_memberActions (accepted.of_append_left.of_cons.of_mem_flatMap member))
    rfl ⟨_, found, rfl, rfl, rfl, rfl, rfl⟩

/-- A block is covered by its plan, whether it counts or not. -/
theorem covers_implPlan {decl : ImplDecl} (found : tree.entry? id = some ⟨deprecated, .impl decl⟩)
    (accepted : Accepted (tree.implPlan id deprecated type decl).actions) :
    tree.Covers id (tree.implPlan id deprecated type decl).actions
      (tree.implPlan id deprecated type decl).next := by
  have declared := declared_of_found found
  by_cases counts : decl.Counts
  · have whole : (Declaration.impl decl).parts = decl.items := if_pos counts
    cases named : decl.trait with
    | none =>
      rw [implPlan_own counts named] at accepted ⊢
      have hidden : ¬(Declaration.impl decl).IsPublic := by
        rintro ⟨trait, _⟩
        rw [named] at trait
        cases trait
      exact Covers.silent declared nofun nofun whole
        (fun _ member => covers_memberActions (accepted.of_cons.of_mem_flatMap member)) hidden
    | some trait =>
      rw [implPlan_trait counts named] at accepted ⊢
      have links := links_of_parts declared nofun nofun
      rw [whole] at links
      exact Covers.owner declared links
        (fun _ member =>
          covers_memberActions (accepted.of_append_left.of_cons.of_mem_flatMap member))
        rfl ⟨_, found, rfl, named, rfl, rfl, rfl, rfl⟩
  · rw [implPlan_passed counts]
    exact Covers.bare declared (links_of_none declared nofun nofun (if_neg counts))
      (fun action member => ⟨_, List.mem_singleton.mp member⟩) fun isPublic => counts isPublic.2

/-- A module leaves all that it leads to for tasks. -/
theorem covers_module {decl : ModuleDecl} (declared : tree.declaration? id = some (.module decl)) :
    tree.Covers id [.visit id] (listedTasks path id decl.items) := by
  have links : ∀ child, tree.Leads id child ↔
      ∃ task ∈ listedTasks path id decl.items, task.id = child ∧ tree.Heeds task := by
    intro child
    rw [leads_iff_of_module declared]
    simp [listedTasks]
  exact Covers.bare declared links (fun action none => absurd none List.not_mem_nil) not_false

theorem covers_reexportPlan {decl : ReexportDecl}
    (declared : tree.declaration? id = some (.reexport decl)) :
    tree.Covers id (reexportPlan id path decl).actions (reexportPlan id path decl).next := by
  unfold reexportPlan
  cases aims : decl.target with
  | none =>
    have links : ∀ child, tree.Leads id child ↔
        ∃ task ∈ ([] : List Task), task.id = child ∧ tree.Heeds task := by
      intro child
      rw [leads_iff_of_reexport declared]
      simp [aims]
    exact Covers.bare declared links (fun action member => ⟨_, List.mem_singleton.mp member⟩)
      not_false
  | some target =>
    have links : ∀ child, tree.Leads id child ↔
        ∃ task ∈ [⟨target, path, if decl.glob then .spliced decl.source
          else .named id decl.name decl.source⟩], task.id = child ∧ tree.Heeds task := by
      intro child
      rw [leads_iff_of_reexport declared, aims, Option.some.injEq]
      simp only [List.mem_singleton, exists_eq_left]
      refine and_congr_right fun same => ?_
      subst same
      by_cases whole : decl.glob = true
      · rw [if_pos whole, if_pos whole, heeds_spliced]
      · rw [if_neg whole, if_neg whole, heeds_named]
    exact Covers.bare declared links (fun action none => absurd none List.not_mem_nil) not_false

/-- Whatever a module may hold is covered by its plan, under its own name or another. -/
theorem covers_itemPlan {entry : Entry} {givenName : Option String}
    (found : tree.entry? id = some entry)
    (accepted : Accepted (tree.itemPlan id entry path givenName).actions) :
    tree.Covers id (tree.itemPlan id entry path givenName).actions
      (tree.itemPlan id entry path givenName).next := by
  obtain ⟨deprecated, declaration⟩ := entry
  have declared := declared_of_found found
  cases declaration with
  | module decl => exact covers_module declared
  | struct decl => exact covers_structPlan found accepted
  | union decl => exact covers_unionPlan found accepted
  | enum decl => exact covers_enumPlan found accepted
  | trait decl => exact covers_traitPlan found accepted
  | reexport decl => exact covers_reexportPlan declared
  | function decl => exact .leaf declared nofun nofun rfl rfl ⟨_, found, rfl, rfl⟩
  | method decl => exact .leaf declared nofun nofun rfl rfl ⟨_, found, rfl, rfl, rfl⟩
  | typedef decl => exact .leaf declared nofun nofun rfl rfl ⟨_, found, rfl, rfl⟩
  | constant decl => exact .leaf declared nofun nofun rfl rfl ⟨_, found, rfl, rfl, rfl, rfl, rfl⟩
  | static decl => exact .leaf declared nofun nofun rfl rfl ⟨_, found, rfl, rfl, rfl, rfl, rfl⟩
  | inert decl =>
    exact Covers.bare declared (links_of_none declared nofun nofun rfl)
      (fun action member => ⟨_, List.mem_singleton.mp member⟩) not_false
  | variant | structField | impl | assocType | assocConst =>
    exact absurd (List.mem_cons_of_mem _ List.mem_cons_self) (accepted _)

end Coverage

/-- A task that is heeded and not refused is covered by its plan. -/
theorem covers_plan {tree : Tree} {task : Task} (heeded : tree.Heeds task)
    (accepted : Accepted (tree.plan task).actions) :
    tree.Covers task.id (tree.plan task).actions (tree.plan task).next := by
  cases answer_of_accepted accepted with
  | idle passed => exact absurd heeded passed
  | item _ _ found same =>
    rw [same] at accepted ⊢
    exact covers_itemPlan found accepted
  | splice _ declared same =>
    rw [same]
    exact covers_module declared
  | block _ _ found same =>
    rw [same] at accepted ⊢
    exact covers_implPlan found accepted

/-- Only a task that is heeded visits anything. -/
theorem heeds_of_visit {tree : Tree} {task : Task} {id : Int}
    (accepted : Accepted (tree.plan task).actions) (visits : .visit id ∈ (tree.plan task).actions) :
    tree.Heeds task := by
  cases answer_of_accepted accepted with
  | idle _ still => exact absurd visits (still id)
  | item _ heeded | splice heeded | block _ heeded => exact heeded

/-- Only a task that is heeded publishes anything. -/
theorem heeds_of_publish {tree : Tree} {task : Task} {publication : Publication}
    (accepted : Accepted (tree.plan task).actions)
    (publishes : publication ∈ publications (tree.plan task).actions) : tree.Heeds task := by
  cases answer_of_accepted accepted with
  | idle _ _ mute =>
    rw [mute] at publishes
    cases publishes
  | item _ heeded | splice heeded | block _ heeded => exact heeded

end ApiDelta.Tree
