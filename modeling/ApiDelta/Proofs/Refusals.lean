import ApiDelta.Proofs.References

/-!
Why plans are refused. A plan attends to the reference that its task stems from and to those of the parts
that it goes through. It is accepted only if all of these fit, and what it refuses is the fault of one
that does not. The further tasks of an accepted plan ask for whatever else its entry refers to.
-/
namespace ApiDelta.Tree

/-! ## Attention -/

/-- Actions attend to references: they visit nothing but what these lead to, refuse nothing but what does
not fit, and are accepted only if all fit. -/
structure Attends (tree : Tree) (references : List Reference) (actions : List Action) : Prop where
  visits : ∀ id, .visit id ∈ actions → ∃ reference ∈ references, reference.id = id
  blames : ∀ problem, .refuse problem ∈ actions →
    ∃ reference ∈ references, ¬tree.Fits reference ∧ problem = tree.fault reference
  fits : Accepted actions → ∀ reference ∈ references, tree.Fits reference

/-- A reference to a part and, if it is to be a variant, the references of that to its fields. -/
def within (tree : Tree) (reference : Reference) : List Reference :=
  match reference.role with
  | .variant => reference :: tree.held reference.id
  | _ => [reference]

/-- The references that a plan for an entry goes through: to its parts, and to theirs. -/
def attended (tree : Tree) (id : Int) : List Reference :=
  (tree.held id).flatMap tree.within

section Attention

variable {tree : Tree} {reference : Reference} {references : List Reference} {actions : List Action}

theorem Attends.nil : tree.Attends [] [] where
  visits := nofun
  blames := nofun
  fits := nofun

theorem Attends.visit (attends : tree.Attends (reference :: references) actions) :
    tree.Attends (reference :: references) (.visit reference.id :: actions) where
  visits := by
    intro id member
    rcases List.mem_cons.mp member with here | later
    · cases here
      exact ⟨reference, List.mem_cons_self, rfl⟩
    · exact attends.visits id later
  blames := by
    intro problem member
    rcases List.mem_cons.mp member with here | later
    · cases here
    · exact attends.blames problem later
  fits := fun accepted => attends.fits accepted.of_cons

/-- A reference that fits leaves the rest to be attended to. -/
theorem Attends.fit (fits : tree.Fits reference) (attends : tree.Attends references actions) :
    tree.Attends (reference :: references) actions where
  visits := by
    intro id member
    obtain ⟨other, inside, same⟩ := attends.visits id member
    exact ⟨other, List.mem_cons_of_mem _ inside, same⟩
  blames := by
    intro problem member
    obtain ⟨other, inside, fault⟩ := attends.blames problem member
    exact ⟨other, List.mem_cons_of_mem _ inside, fault⟩
  fits := fun accepted => List.forall_mem_cons.mpr ⟨fits, attends.fits accepted⟩

/-- A reference that does not fit is refused, and the rest does not matter. -/
theorem Attends.misfit (unfit : ¬tree.Fits reference) :
    tree.Attends (reference :: references) [.refuse (tree.fault reference)] where
  visits := by simp
  blames := by
    intro problem member
    cases List.mem_singleton.mp member
    exact ⟨reference, List.mem_cons_self, unfit, rfl⟩
  fits := fun accepted => absurd (List.mem_singleton_self _) (accepted _)

theorem Attends.append {closing : List Action} (attends : tree.Attends references actions)
    (quiet : ∀ action ∈ closing, (∀ id, action ≠ .visit id) ∧ ∀ problem, action ≠ .refuse problem) :
    tree.Attends references (actions ++ closing) where
  visits := by
    intro id member
    rcases List.mem_append.mp member with before | after
    · exact attends.visits id before
    · exact absurd rfl ((quiet _ after).1 id)
  blames := by
    intro problem member
    rcases List.mem_append.mp member with before | after
    · exact attends.blames problem before
    · exact absurd rfl ((quiet _ after).2 problem)
  fits := fun accepted => attends.fits accepted.of_append_left

/-- What attends to each reference, with more references in its wake, attends to all. -/
theorem Attends.flatMap {role : Role} {referrer : Int} {ids : List Int} {make : Int → List Action}
    {wake : Reference → List Reference}
    (each : ∀ id, tree.Attends (wake ⟨referrer, role, id⟩) (make id)) :
    tree.Attends ((role.references referrer ids).flatMap wake) (ids.flatMap make) where
  visits := by
    intro id member
    obtain ⟨part, listed, visits⟩ := List.mem_flatMap.mp member
    obtain ⟨reference, inside, same⟩ := (each part).visits id visits
    exact ⟨reference, List.mem_flatMap.mpr ⟨_, List.mem_map_of_mem listed, inside⟩, same⟩
  blames := by
    intro problem member
    obtain ⟨part, listed, refuses⟩ := List.mem_flatMap.mp member
    obtain ⟨reference, inside, fault⟩ := (each part).blames problem refuses
    exact ⟨reference, List.mem_flatMap.mpr ⟨_, List.mem_map_of_mem listed, inside⟩, fault⟩
  fits := by
    intro accepted reference member
    obtain ⟨outer, listed, inside⟩ := List.mem_flatMap.mp member
    obtain ⟨part, member, rfl⟩ := Role.mem_references.mp listed
    exact (each part).fits (accepted.of_mem_flatMap member) reference inside

end Attention

/-! ## Parts -/

section Parts

variable {tree : Tree} {type : Identity} {path : List String} {referrer id : Int}

theorem declaration?_of_absent (absent : tree.entry? id = none) : tree.declaration? id = none := by
  rw [declaration?, absent]
  rfl

/-- A number that leads nowhere is refused where a list has it. -/
theorem Attends.dangling {reference : Reference} {references : List Reference}
    (absent : tree.entry? reference.id = none) (listed : reference.role.IsListed) :
    tree.Attends (reference :: references)
      [.refuse (.dangling reference.id reference.referrer)] := by
  have nowhere := declaration?_of_absent absent
  rw [← fault_of_absent nowhere]
  exact .misfit fun fits => (fits_of_absent nowhere).mp fits listed

/-- An entry is refused where its declaration cannot play the role. -/
theorem Attends.misplaced {reference : Reference} {references : List Reference} {deprecated : Bool}
    {declaration : Declaration}
    (found : tree.entry? reference.id = some ⟨deprecated, declaration⟩)
    (bars : ¬reference.role.Admits declaration) :
    tree.Attends (reference :: references) [.refuse (.misplaced reference.id declaration.kind
      (reference.role.place reference.referrer declaration))] := by
  have declared := declared_of_found found
  rw [← fault_of_declared declared]
  exact .misfit (mt (fits_of_declared declared).mp bars)

theorem fits_of_found {reference : Reference} {entry : Entry}
    (found : tree.entry? reference.id = some entry)
    (admits : reference.role.Admits entry.declaration) : tree.Fits reference :=
  (fits_of_declared (declared_of_found found)).mpr admits

/-- What fits is visited and published. -/
theorem Attends.leaf {reference : Reference} {publication : Publication}
    (fits : tree.Fits reference) :
    tree.Attends [reference] [.visit reference.id, .publish publication] :=
  (Attends.fit fits .nil).visit.append (by simp)

theorem attends_fieldActions :
    tree.Attends [⟨referrer, .field, id⟩] (tree.fieldActions type path referrer id) := by
  unfold fieldActions field?
  cases found : tree.entry? id with
  | none => exact .dangling found trivial
  | some entry =>
    obtain ⟨deprecated, declaration⟩ := entry
    cases declaration with
    | structField decl =>
      have fits : tree.Fits ⟨referrer, .field, id⟩ := fits_of_found found trivial
      exact .leaf fits
    | _ => exact .misplaced found not_false

theorem attends_fields {ids : List Int} : tree.Attends (Role.field.references referrer ids)
    (ids.flatMap (tree.fieldActions type path referrer)) := by
  have each : tree.Attends ((Role.field.references referrer ids).flatMap fun field => [field])
      (ids.flatMap (tree.fieldActions type path referrer)) := .flatMap fun _ => attends_fieldActions
  rwa [List.flatMap_singleton'] at each

theorem attends_variantActions : tree.Attends (tree.within ⟨referrer, .variant, id⟩)
    (tree.variantActions type referrer id) := by
  unfold variantActions variant?
  cases found : tree.entry? id with
  | none => exact .dangling found trivial
  | some entry =>
    obtain ⟨deprecated, declaration⟩ := entry
    cases declaration with
    | variant decl =>
      have fits : tree.Fits ⟨referrer, .variant, id⟩ := fits_of_found found trivial
      have fields : tree.held id = Role.field.references id decl.fields := by
        simp only [held, declared_of_found found]
      rw [within, fields]
      exact (Attends.fit fits attends_fields).visit
    | _ => exact .misplaced found not_false

theorem attends_variants {ids : List Int} :
    tree.Attends ((Role.variant.references referrer ids).flatMap tree.within)
      (ids.flatMap (tree.variantActions type referrer)) :=
  .flatMap fun _ => attends_variantActions

theorem attends_memberActions {parent : String} {owner : Option Identity} :
    tree.Attends [⟨referrer, .member, id⟩] (tree.memberActions path parent owner referrer id) := by
  unfold memberActions member?
  cases found : tree.entry? id with
  | none => exact .dangling found trivial
  | some entry =>
    obtain ⟨deprecated, declaration⟩ := entry
    cases declaration with
    | function | method | assocType | assocConst =>
      have fits : tree.Fits ⟨referrer, .member, id⟩ := fits_of_found found trivial
      exact .leaf fits
    | _ => exact .misplaced found not_false

theorem attends_members {parent : String} {owner : Option Identity} {ids : List Int} :
    tree.Attends (Role.member.references referrer ids)
      (ids.flatMap (tree.memberActions path parent owner referrer)) := by
  have each : tree.Attends ((Role.member.references referrer ids).flatMap fun member => [member])
      (ids.flatMap (tree.memberActions path parent owner referrer)) :=
    .flatMap fun _ => attends_memberActions
  rwa [List.flatMap_singleton'] at each

end Parts

/-! ## Plans -/

section Plans

variable {tree : Tree} {id : Int} {path : List String} {reference : Reference} {task : Task}

/-- Only the references of an enumeration have others in their wake. -/
theorem flatMap_within {role : Role} {referrer : Int} {ids : List Int} (single : role ≠ .variant) :
    (role.references referrer ids).flatMap tree.within = role.references referrer ids := by
  have alone : ∀ reference ∈ role.references referrer ids, tree.within reference = [reference] := by
    intro reference member
    obtain ⟨_, _, rfl⟩ := Role.mem_references.mp member
    cases role <;> first | rfl | exact absurd rfl single
  rw [List.flatMap_congr alone, List.flatMap_singleton']

/-- The plan for an entry that fits goes through its parts. -/
theorem attends_itemPlan {deprecated : Bool} {declaration : Declaration} {givenName : Option String}
    (found : tree.entry? reference.id = some ⟨deprecated, declaration⟩) (fits : tree.Fits reference)
    (whole : ¬declaration.OnlyPart) (noImpl : ∀ block, declaration ≠ .impl block) :
    tree.Attends (reference :: tree.attended reference.id)
      (tree.itemPlan reference.id ⟨deprecated, declaration⟩ path givenName).actions := by
  have declared := declared_of_found found
  cases declaration with
  | struct | union =>
    simp only [attended, held, declared, flatMap_within, ne_eq, reduceCtorEq, not_false_eq_true]
    exact (Attends.fit fits attends_fields).visit.append (by simp)
  | enum =>
    simp only [attended, held, declared]
    exact (Attends.fit fits attends_variants).visit.append (by simp)
  | trait =>
    simp only [attended, held, declared, flatMap_within, ne_eq, reduceCtorEq, not_false_eq_true]
    exact (Attends.fit fits attends_members).visit.append (by simp)
  | impl block => exact absurd rfl (noImpl block)
  | variant | structField | assocType | assocConst => exact absurd trivial whole
  | function | method | typedef | constant | static =>
    simp only [attended, held, declared, List.flatMap_nil]
    exact .leaf fits
  | module =>
    simp only [attended, held, declared, List.flatMap_nil]
    exact (Attends.fit fits .nil).visit
  | inert =>
    simp only [attended, held, declared, List.flatMap_nil]
    exact (Attends.fit fits .nil).visit.append (by simp)
  | reexport decl =>
    simp only [attended, held, declared, List.flatMap_nil, itemPlan, reexportPlan]
    cases decl.target with
    | none => exact (Attends.fit fits .nil).visit.append (by simp)
    | some target => exact (Attends.fit fits .nil).visit

theorem attends_implPlan {type : Identity} {deprecated : Bool} {decl : ImplDecl}
    (found : tree.entry? reference.id = some ⟨deprecated, .impl decl⟩) (fits : tree.Fits reference) :
    tree.Attends (reference :: tree.attended reference.id)
      (tree.implPlan reference.id deprecated type decl).actions := by
  simp only [attended, held, declared_of_found found]
  by_cases counts : decl.Counts
  · simp only [if_pos counts, flatMap_within, ne_eq, reduceCtorEq, not_false_eq_true]
    cases named : decl.trait with
    | none =>
      rw [implPlan_own counts named]
      exact (Attends.fit fits attends_members).visit
    | some trait =>
      rw [implPlan_trait counts named]
      exact (Attends.fit fits attends_members).visit.append (by simp)
  · rw [if_neg counts, implPlan_passed counts]
    exact (Attends.fit fits .nil).visit.append (by simp)

theorem plan_listed {entry : Entry} {referrer : Int} (found : tree.entry? id = some entry)
    (noImpl : ∀ block, entry.declaration ≠ .impl block) :
    tree.plan ⟨id, path, .listed referrer⟩ = tree.itemPlan id entry path none := by
  obtain ⟨deprecated, declaration⟩ := entry
  cases declaration with
  | impl block => exact absurd rfl (noImpl block)
  | _ => simp only [plan, found]

theorem plan_named {entry : Entry} {importer : Int} {name source : String}
    (found : tree.entry? id = some entry) (noImpl : ∀ block, entry.declaration ≠ .impl block) :
    tree.plan ⟨id, path, .named importer name source⟩ =
      tree.itemPlan id entry path (some name) := by
  obtain ⟨deprecated, declaration⟩ := entry
  cases declaration with
  | impl block => exact absurd rfl (noImpl block)
  | _ => simp only [plan, found]

/-- A task that stems from a reference which does not fit is refused for that, and nothing is planned
but at most a visit. -/
theorem plan_of_unfit (stems : Stems reference task) (unfit : ¬tree.Fits reference) :
    (tree.plan task).actions = [.refuse (tree.fault reference)] ∨
      (tree.plan task).actions = [.visit task.id, .refuse (tree.fault reference)] := by
  cases found : tree.entry? reference.id with
  | none =>
    have absent := declaration?_of_absent found
    rw [fault_of_absent absent]
    rw [fits_of_absent absent, not_not] at unfit
    cases stems with
    | item | impl => exact .inl (by simp only [plan, found])
    | target | contents => exact unfit.elim
  | some entry =>
    obtain ⟨deprecated, declaration⟩ := entry
    have declared := declared_of_found found
    rw [fault_of_declared declared]
    rw [fits_of_declared declared] at unfit
    cases stems with
    | item =>
      cases declaration with
      | variant | structField | assocType | assocConst =>
        exact .inr (by simp only [plan, found, itemPlan, Role.place])
      | _ => exact absurd not_false unfit
    | target =>
      cases declaration with
      | variant | structField | assocType | assocConst =>
        exact .inr (by simp only [plan, found, itemPlan, Role.place])
      | impl block => exact .inl (by simp only [plan, found, Role.place])
      | _ => exact absurd not_false unfit
    | contents => exact absurd trivial unfit
    | impl =>
      cases declaration with
      | impl block => exact absurd trivial unfit
      | _ => exact .inl (by simp only [plan, found, Role.place])

/-- The plan of a task that is heeded goes through the parts of an entry that fits. -/
theorem attends_plan_of_fits (stems : Stems reference task) (fits : tree.Fits reference)
    (heeded : tree.Heeds task) :
    tree.Attends (reference :: tree.attended task.id) (tree.plan task).actions := by
  cases stems with
  | item =>
    obtain ⟨_, declared, admits⟩ := declared_of_fits fits trivial
    obtain ⟨⟨deprecated, declaration⟩, found, rfl⟩ := Option.map_eq_some_iff.mp declared
    have noImpl : ∀ block, declaration ≠ .impl block := fun block same =>
      heeded block (same ▸ declared)
    rw [plan_listed found noImpl]
    exact attends_itemPlan found fits admits noImpl
  | target =>
    obtain ⟨⟨deprecated, declaration⟩, found⟩ := Option.isSome_iff_exists.mp heeded
    have admits := (fits_of_declared (declared_of_found found)).mp fits
    have noImpl : ∀ block, declaration ≠ .impl block := by
      rintro block rfl
      exact admits
    have whole : ¬declaration.OnlyPart := by
      cases declaration with
      | impl block => exact absurd rfl (noImpl block)
      | _ => exact admits
    rw [plan_named found noImpl]
    exact attends_itemPlan found fits whole noImpl
  | contents =>
    obtain ⟨module, declared⟩ := heeded
    obtain ⟨⟨deprecated, declaration⟩, found, same⟩ := Option.map_eq_some_iff.mp declared
    cases same
    simp only [attended, held, declared, List.flatMap_nil, plan, found]
    exact (Attends.fit fits .nil).visit
  | impl =>
    obtain ⟨_, declared, admits⟩ := declared_of_fits fits trivial
    obtain ⟨⟨deprecated, declaration⟩, found, rfl⟩ := Option.map_eq_some_iff.mp declared
    cases declaration with
    | impl block =>
      simp only [plan, found]
      exact attends_implPlan found fits
    | _ => exact admits.elim

/-- The plan of a task that is heeded attends to the reference that the task stems from, and to those of
the parts it goes through. -/
theorem attends_plan (stems : Stems reference task) (heeded : tree.Heeds task) :
    tree.Attends (reference :: tree.attended task.id) (tree.plan task).actions := by
  by_cases fits : tree.Fits reference
  · exact attends_plan_of_fits stems fits heeded
  · rcases plan_of_unfit stems fits with actions | actions
    · rw [actions]
      exact .misfit fits
    · rw [actions, ← stems.id_eq]
      exact (Attends.misfit fits).visit

/-- A task that comes to nothing stems from a reference that fits, and nothing is refused. -/
theorem fits_of_passed (stems : Stems reference task) (passed : ¬tree.Heeds task) :
    tree.Fits reference ∧ Accepted (tree.plan task).actions := by
  cases stems with
  | item =>
    rw [heeds_listed, not_forall] at passed
    obtain ⟨block, declared⟩ := passed
    obtain ⟨entry, found, same⟩ := Option.map_eq_some_iff.mp (not_not.mp declared)
    obtain ⟨deprecated, declaration⟩ := entry
    cases same
    exact ⟨fits_of_found found not_false, by simp [Accepted, plan, found]⟩
  | target =>
    have absent := Option.not_isSome_iff_eq_none.mp passed
    exact ⟨(fits_of_absent (declaration?_of_absent absent)).mpr not_false,
      by simp [Accepted, plan, absent]⟩
  | @contents importer id path source =>
    cases found : tree.entry? id with
    | none =>
      exact ⟨(fits_of_absent (declaration?_of_absent found)).mpr not_false,
        by simp [Accepted, plan, found]⟩
    | some entry =>
      obtain ⟨deprecated, declaration⟩ := entry
      refine ⟨fits_of_found found trivial, ?_⟩
      cases declaration with
      | module decl => exact absurd ⟨decl, declared_of_found found⟩ passed
      | _ => simp [Accepted, plan, found]
  | impl => exact absurd trivial passed

/-- The further tasks of a plan ask for all that its entry refers to and that is no part. -/
theorem asks_plan (accepted : Accepted (tree.plan task).actions) (heeded : tree.Heeds task) :
    Asks (tree.sought task.id) (tree.plan task).next := by
  cases answer_of_accepted accepted with
  | idle passed => exact absurd heeded passed
  | item _ _ found same =>
    rw [same]
    exact asks_itemPlan found
  | splice _ declared same =>
    simp only [same, sought, declared]
    exact asks_listedTasks _ _ _
  | block _ _ found same =>
    simp only [same, sought, declared_of_found found, implPlan_next]
    exact .nil

end Plans

end ApiDelta.Tree
