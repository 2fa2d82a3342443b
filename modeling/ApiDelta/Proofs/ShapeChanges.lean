import ApiDelta.Proofs.EditsInPlace

/-!
Changes of shape. A struct is plain, a tuple or a unit; a variant is plain, a tuple or like a struct. The
item of a struct tells its shape. A variant has no item: its enumeration records its name, and with it the
names of its fields, but not its shape. So where two trees differ in shapes alone, the walk does the
same in both, and what it publishes differs in the kind of the structs that have another shape. Each of
these is reported, as a modification that breaks callers, and nothing else is.
-/
namespace ApiDelta

namespace Item

/-- The item of a type, told as that of a struct of the given kind. -/
def withStructKind (kind : StructKind) (item : Item) : Item :=
  match item.form with
  | .type form => { item with form := .type { form with structKind := some kind } }
  | _ => item

section StructKinds

variable {item : Item} {form : TypeForm} {kind : StructKind}

theorem withStructKind_of_type (isType : item.form = .type form) :
    item.withStructKind kind =
      { item with form := .type { form with structKind := some kind } } := by
  simp only [withStructKind, isType]

@[simp]
theorem deprecated_withStructKind : (item.withStructKind kind).deprecated = item.deprecated := by
  unfold withStructKind
  split <;> rfl

theorem itemClass_withStructKind : (item.withStructKind kind).itemClass = item.itemClass := by
  unfold withStructKind
  split
  · rename_i isType
    simp only [itemClass, isType, Form.itemClass]
  · rfl

theorem attribute?_structKind (isType : item.form = .type form) :
    item.attribute? "struct_kind" = form.structKind.map (.text ·.label) := by
  simp [attribute?, attributes, Form.attributes, isType, List.lookup_cons]

/-- A struct of another kind differs in its kind and in nothing else. -/
theorem changedAttributes_withStructKind (isType : item.form = .type form)
    (differ : form.structKind ≠ some kind) :
    changedAttributes item (item.withStructKind kind) = ["struct_kind"] := by
  refine (changedAttributes_increasing _ _).eq_of_mem_iff (List.pairwise_singleton _ _) ?_
  intro name
  rw [mem_changedAttributes, List.mem_singleton, withStructKind_of_type isType]
  by_cases here : name = "struct_kind"
  · subst here
    refine iff_of_true ?_ rfl
    rw [attribute?_structKind isType, attribute?_structKind rfl]
    exact mt AttributeValue.map_structKind_inj.mp differ
  · have elsewhere : (name == "struct_kind") = false := beq_false_of_ne here
    refine iff_of_false (not_not.mpr ?_) here
    simp only [attribute?, attributes, itemClass, Form.itemClass, Form.attributes, isType,
      List.lookup_cons, elsewhere]

theorem isBreakingModification_withStructKind (isType : item.form = .type form)
    (differ : form.structKind ≠ some kind) :
    item.isBreakingModification (item.withStructKind kind) = true := by
  have isType' : (item.withStructKind kind).form = .type { form with structKind := some kind } := by
    rw [withStructKind_of_type isType]
  have changed := changedAttributes_withStructKind isType differ
  simp [isBreakingModification, changed, breaks, isType']

end StructKinds

end Item

namespace Tree

/-! ## Other shapes -/

/-- Two declarations differ at most in the shape of a struct or of a variant. -/
inductive Declaration.SameButShape : Declaration → Declaration → Prop where
  | refl (declaration : Declaration) : SameButShape declaration declaration
  | struct (decl : StructDecl) (shape : StructShape) :
      SameButShape (.struct decl) (.struct { decl with shape := shape })
  | variant (decl : VariantDecl) (shape : VariantShape) :
      SameButShape (.variant decl) (.variant { decl with shape := shape })

/-- The second tree results from the first by giving structs and variants other shapes. -/
def Reshaped (old new : Tree) : Prop :=
  ∀ id, Option.Rel (fun entry entry' => entry'.deprecated = entry.deprecated ∧
    entry.declaration.SameButShape entry'.declaration) (old.entry? id) (new.entry? id)

/-- The publication of a struct, told in the shape that the struct has in a tree. -/
def retell (tree : Tree) (publication : Publication) : Publication :=
  match tree.declaration? publication.source with
  | some (.struct decl) =>
    { publication with item := publication.item.withStructKind decl.shape.structKind }
  | _ => publication

def Action.retell (tree : Tree) : Action → Action
  | .publish publication => .publish (tree.retell publication)
  | other => other

def Plan.retell (tree : Tree) (plan : Plan) : Plan :=
  { plan with actions := plan.actions.map (Action.retell tree) }

section Searches

variable {old new : Tree} {id referrer : Int}

/-- A number leads to the same entry in both trees, its shape apart, or it leads nowhere in both. -/
theorem Reshaped.found (reshaped : old.Reshaped new) (id : Int) :
    (old.entry? id = none ∧ new.entry? id = none) ∨
      ∃ deprecated declaration declaration', old.entry? id = some ⟨deprecated, declaration⟩ ∧
        new.entry? id = some ⟨deprecated, declaration'⟩ ∧
        declaration.SameButShape declaration' := by
  have related := reshaped id
  cases found : old.entry? id <;> cases found' : new.entry? id <;>
    rw [found, found'] at related <;> cases related
  · exact .inl ⟨rfl, rfl⟩
  · rename_i entry entry' same
    obtain ⟨deprecated, declaration⟩ := entry
    obtain ⟨deprecated', declaration'⟩ := entry'
    obtain ⟨rfl, same⟩ := same
    exact .inr ⟨_, _, _, rfl, rfl, same⟩

theorem Reshaped.declared (reshaped : old.Reshaped new) {declaration' : Declaration}
    (declared' : new.declaration? id = some declaration') :
    ∃ declaration, old.declaration? id = some declaration ∧
      declaration.SameButShape declaration' := by
  rcases reshaped.found id with ⟨_, absent⟩ | ⟨_, declaration, _, found, found', same⟩
  · rw [declaration?, absent] at declared'
    cases declared'
  · rw [declared_of_found found'] at declared'
    cases declared'
    exact ⟨declaration, declared_of_found found, same⟩

theorem Reshaped.field?_eq (reshaped : old.Reshaped new) :
    new.field? referrer id = old.field? referrer id := by
  unfold field?
  rcases reshaped.found id with ⟨absent, absent'⟩ | ⟨_, _, _, found, found', same⟩
  · rw [absent, absent']
  · rw [found, found']
    cases same <;> rfl

theorem Reshaped.member?_eq (reshaped : old.Reshaped new) {parent : String}
    {owner : Option Identity} :
    new.member? parent owner referrer id = old.member? parent owner referrer id := by
  unfold member?
  rcases reshaped.found id with ⟨absent, absent'⟩ | ⟨_, _, _, found, found', same⟩
  · rw [absent, absent']
  · rw [found, found']
    cases same <;> rfl

/-- A number leads to the same variant in both trees, in one shape or another. -/
theorem Reshaped.variant?_eq (reshaped : old.Reshaped new) (referrer id : Int) :
    ∃ shape : VariantShape, new.variant? referrer id =
      (old.variant? referrer id).map fun decl => { decl with shape := shape } := by
  unfold variant?
  rcases reshaped.found id with ⟨absent, absent'⟩ | ⟨_, declaration, _, found, found', same⟩
  · rw [absent, absent']
    exact ⟨.plain, rfl⟩
  · rw [found, found']
    cases same with
    | refl =>
      cases declaration with
      | variant decl => exact ⟨decl.shape, rfl⟩
      | _ => exact ⟨.plain, rfl⟩
    | struct => exact ⟨.plain, rfl⟩
    | variant decl shape => exact ⟨shape, rfl⟩

end Searches

/-! ## Plans -/

section Plans

variable {old new : Tree} {id referrer : Int} {ids : List Int} {type : Identity}
  {path : List String}

theorem retell_of_struct {tree : Tree} {told : Identity} {item : Item} {decl : StructDecl}
    (declared : tree.declaration? id = some (.struct decl)) :
    tree.retell ⟨id, told, item⟩ = ⟨id, told, item.withStructKind decl.shape.structKind⟩ := by
  simp only [retell, declared]

theorem retell_of_other {tree : Tree} {told : Identity} {item : Item}
    (other : ∀ decl, tree.declaration? id ≠ some (.struct decl)) :
    tree.retell ⟨id, told, item⟩ = ⟨id, told, item⟩ := by
  unfold retell
  split
  · rename_i decl declared
    exact absurd declared (other decl)
  · rfl

theorem retell_of_declared {tree : Tree} {told : Identity} {item : Item} {declaration : Declaration}
    (declared : tree.declaration? id = some declaration) (other : ∀ decl, declaration ≠ .struct decl) :
    tree.retell ⟨id, told, item⟩ = ⟨id, told, item⟩ :=
  retell_of_other fun decl struct => other decl (Option.some.inj (declared.symm.trans struct))

theorem not_struct_of_field? {tree : Tree} {field : Bool × FieldDecl}
    (found : tree.field? referrer id = .ok field) (decl : StructDecl) :
    tree.declaration? id ≠ some (.struct decl) := by
  unfold field? at found
  split at found
  · cases found
  · rename_i entry
    rw [declared_of_found entry]
    exact nofun
  · cases found

theorem not_struct_of_member? {tree : Tree} {parent : String} {owner : Option Identity}
    {member : IdKind × Item} (found : tree.member? parent owner referrer id = .ok member)
    (decl : StructDecl) : tree.declaration? id ≠ some (.struct decl) := by
  unfold member? at found
  intro declared
  obtain ⟨entry, present, shape⟩ := Option.map_eq_some_iff.mp declared
  simp only [present, memberItem?, shape] at found
  cases found

/-- What is told anew part by part is told anew as a whole. -/
theorem flatMap_retell {tree : Tree} {make make' : Int → List Action}
    (each : ∀ id, make' id = (make id).map (Action.retell tree)) :
    ids.flatMap make' = (ids.flatMap make).map (Action.retell tree) := by
  rw [List.map_flatMap]
  exact List.flatMap_congr fun id _ => each id

theorem Reshaped.fieldActions_eq (reshaped : old.Reshaped new) :
    new.fieldActions type path referrer id =
      (old.fieldActions type path referrer id).map (Action.retell new) := by
  unfold fieldActions
  rw [reshaped.field?_eq]
  cases found : old.field? referrer id with
  | error problem => rfl
  | ok field =>
    have other := not_struct_of_field? (reshaped.field?_eq.trans found)
    simp only [List.map_cons, List.map_nil, Action.retell, retell_of_other other]

theorem Reshaped.fieldNames_eq (reshaped : old.Reshaped new) :
    new.fieldNames referrer ids = old.fieldNames referrer ids :=
  List.filterMap_congr fun id _ => by rw [reshaped.field?_eq]

theorem Reshaped.fields_eq (reshaped : old.Reshaped new) :
    ids.flatMap (new.fieldActions type path referrer) =
      (ids.flatMap (old.fieldActions type path referrer)).map (Action.retell new) :=
  flatMap_retell fun _ => reshaped.fieldActions_eq

theorem Reshaped.variantActions_eq (reshaped : old.Reshaped new) :
    new.variantActions type referrer id =
      (old.variantActions type referrer id).map (Action.retell new) := by
  obtain ⟨shape, same⟩ := reshaped.variant?_eq referrer id
  unfold variantActions
  rw [same]
  cases old.variant? referrer id with
  | error problem => rfl
  | ok decl => exact congrArg _ reshaped.fields_eq

theorem Reshaped.allVariants_eq (reshaped : old.Reshaped new) :
    ids.flatMap (new.variantActions type referrer) =
      (ids.flatMap (old.variantActions type referrer)).map (Action.retell new) :=
  flatMap_retell fun _ => reshaped.variantActions_eq

/-- Nothing that is read of a variant depends on its shape. -/
theorem Reshaped.map_variants {α : Type} (reshaped : old.Reshaped new)
    {read : Int × VariantDecl → α}
    (blind : ∀ id decl shape, read (id, { decl with shape := shape }) = read (id, decl)) :
    (new.variants referrer ids).map read = (old.variants referrer ids).map read := by
  simp only [variants, List.map_filterMap]
  refine List.filterMap_congr fun id _ => ?_
  obtain ⟨shape, same⟩ := reshaped.variant?_eq referrer id
  rw [same]
  cases old.variant? referrer id with
  | error problem => rfl
  | ok decl => exact congrArg some (blind id decl shape)

theorem Reshaped.variantFieldNames_eq (reshaped : old.Reshaped new) :
    new.variantFieldNames referrer ids = old.variantFieldNames referrer ids := by
  simp only [variantFieldNames, reshaped.fieldNames_eq, List.flatMap_def]
  exact congrArg List.flatten (reshaped.map_variants fun _ _ _ => rfl)

theorem Reshaped.memberActions_eq (reshaped : old.Reshaped new) {parent : String}
    {owner : Option Identity} :
    new.memberActions path parent owner referrer id =
      (old.memberActions path parent owner referrer id).map (Action.retell new) := by
  unfold memberActions
  rw [reshaped.member?_eq]
  cases found : old.member? parent owner referrer id with
  | error problem => rfl
  | ok member =>
    have other := not_struct_of_member? (reshaped.member?_eq.trans found)
    simp only [List.map_cons, List.map_nil, Action.retell, retell_of_other other]

theorem Reshaped.members_eq (reshaped : old.Reshaped new) {parent : String}
    {owner : Option Identity} :
    ids.flatMap (new.memberActions path parent owner referrer) =
      (ids.flatMap (old.memberActions path parent owner referrer)).map (Action.retell new) :=
  flatMap_retell fun _ => reshaped.memberActions_eq

theorem Reshaped.memberNames_eq (reshaped : old.Reshaped new) :
    new.memberNames referrer ids = old.memberNames referrer ids :=
  List.filterMap_congr fun id _ => by rw [reshaped.member?_eq]

/-- An entry that is published after its parts: told anew, as they are. -/
theorem Plan.retell_closed {tree : Tree} {parts : List Action} {publication publication' : Publication}
    {next : List Task} (told : tree.retell publication = publication') :
    Plan.retell tree ⟨.visit id :: parts ++ [.publish publication], next⟩ =
      ⟨.visit id :: parts.map (Action.retell tree) ++ [.publish publication'], next⟩ := by
  simp only [Plan.retell, List.map_cons, List.map_append, List.map_nil, Action.retell, told]

/-- An entry without parts. -/
theorem Plan.retell_leaf {tree : Tree} {publication publication' : Publication}
    (told : tree.retell publication = publication') :
    Plan.retell tree ⟨[.visit id, .publish publication], []⟩ =
      ⟨[.visit id, .publish publication'], []⟩ := by
  simp only [Plan.retell, List.map_cons, List.map_nil, Action.retell, told]

theorem Reshaped.implPlan_eq (reshaped : old.Reshaped new) {deprecated : Bool} {decl : ImplDecl}
    (declared : new.declaration? id = some (.impl decl)) :
    new.implPlan id deprecated type decl = (old.implPlan id deprecated type decl).retell new := by
  by_cases counts : decl.Counts
  · cases named : decl.trait with
    | none =>
      rw [implPlan_own counts named, implPlan_own counts named, reshaped.members_eq]
      rfl
    | some trait =>
      have same : new.traitImplItem id deprecated decl trait =
          old.traitImplItem id deprecated decl trait := by
        simp only [traitImplItem, reshaped.memberNames_eq]
      rw [implPlan_trait counts named, implPlan_trait counts named, reshaped.members_eq, same,
        Plan.retell_closed (retell_of_declared declared (by simp))]
  · rw [implPlan_passed counts, implPlan_passed counts]
    rfl

/-- The plan of an entry in its new shape is its plan in the old one, told anew. -/
theorem Reshaped.itemPlan_eq (reshaped : old.Reshaped new) {deprecated : Bool}
    {declaration declaration' : Declaration} {givenName : Option String}
    (same : declaration.SameButShape declaration')
    (declared : new.declaration? id = some declaration') :
    new.itemPlan id ⟨deprecated, declaration'⟩ path givenName =
      (old.itemPlan id ⟨deprecated, declaration⟩ path givenName).retell new := by
  cases same with
  | struct decl shape =>
    simp only [itemPlan, structPlan, typePlan, reshaped.fieldNames_eq, reshaped.fields_eq]
    rw [Plan.retell_closed (retell_of_struct declared)]
    rfl
  | variant decl shape => rfl
  | refl =>
    cases declaration with
    | struct decl =>
      simp only [itemPlan, structPlan, typePlan, reshaped.fieldNames_eq, reshaped.fields_eq]
      rw [Plan.retell_closed (retell_of_struct declared)]
      rfl
    | union decl =>
      simp only [itemPlan, unionPlan, typePlan, reshaped.fieldNames_eq, reshaped.fields_eq]
      rw [Plan.retell_closed (retell_of_declared declared (by simp))]
    | enum decl =>
      have names : (new.variants id decl.variants).map (·.2.name) =
          (old.variants id decl.variants).map (·.2.name) := reshaped.map_variants fun _ _ _ => rfl
      have stripped : (new.variants id decl.variants).any (·.2.fieldsStripped) =
          (old.variants id decl.variants).any (·.2.fieldsStripped) := by
        have each : (new.variants id decl.variants).map (·.2.fieldsStripped) =
            (old.variants id decl.variants).map (·.2.fieldsStripped) :=
          reshaped.map_variants fun _ _ _ => rfl
        simpa only [List.any_map, Function.comp_def] using congrArg (·.any fun flag => flag) each
      simp only [itemPlan, enumPlan, typePlan, reshaped.variantFieldNames_eq, reshaped.allVariants_eq,
        names, stripped]
      rw [Plan.retell_closed (retell_of_declared declared (by simp))]
    | trait decl =>
      simp only [itemPlan, traitPlan, reshaped.memberNames_eq, reshaped.members_eq]
      rw [Plan.retell_closed (retell_of_declared declared (by simp))]
    | function | method | typedef | constant | static =>
      exact (Plan.retell_leaf (retell_of_declared declared (by simp))).symm
    | reexport decl =>
      simp only [itemPlan, reexportPlan]
      cases decl.target <;> rfl
    | module | inert | variant | structField | impl | assocType | assocConst => rfl

/-- Where two trees differ in shapes alone, each task is planned alike, and what is published is told
anew. -/
theorem Reshaped.plan_eq (reshaped : old.Reshaped new) (task : Task) :
    new.plan task = (old.plan task).retell new := by
  obtain ⟨id, path, via⟩ := task
  rcases reshaped.found id with ⟨absent, absent'⟩ | ⟨deprecated, declaration, _, found, found', same⟩
  · cases via <;> simp only [plan, absent, absent'] <;> rfl
  · have declared := declared_of_found found'
    have items : ∀ path givenName, new.itemPlan id ⟨deprecated, _⟩ path givenName =
        (old.itemPlan id ⟨deprecated, declaration⟩ path givenName).retell new :=
      fun _ _ => reshaped.itemPlan_eq same declared
    cases same with
    | struct | variant =>
      cases via with
      | listed | named => simp only [plan, found, found', items]
      | spliced | attached =>
        simp only [plan, found, found']
        rfl
    | refl =>
      cases declaration with
      | impl decl =>
        cases via with
        | attached => simp only [plan, found, found', reshaped.implPlan_eq declared]
        | listed | named | spliced =>
          simp only [plan, found, found']
          rfl
      | _ =>
        cases via with
        | listed | named => simp only [plan, found, found', items]
        | spliced | attached =>
          simp only [plan, found, found']
          rfl

end Plans

/-! ## Walks -/

/-- Two states that no task and no action can tell apart: the same entries are visited, and the same
identities are taken. -/
structure WalkState.Abreast (state state' : WalkState) : Prop where
  visited : state'.visited = state.visited
  ids : state'.published.ids = state.published.ids

theorem retell_id {tree : Tree} {publication : Publication} :
    (tree.retell publication).id = publication.id := by
  unfold retell
  split <;> rfl

theorem retell_deprecated {tree : Tree} {publication : Publication} :
    (tree.retell publication).item.deprecated = publication.item.deprecated := by
  unfold retell
  split
  · exact Item.deprecated_withStructKind
  · rfl

theorem publications_retell {tree : Tree} {actions : List Action} :
    publications (actions.map (Action.retell tree)) = (publications actions).map tree.retell := by
  simp only [publications, List.filterMap_map, List.map_filterMap]
  refine List.filterMap_congr fun action _ => ?_
  cases action <;> rfl

section Walks

variable {old new : Tree} {state state' after final : WalkState} {pending answered : List Task}

/-- An action that is told anew is carried out as it was. -/
theorem WalkState.Abreast.perform {action : Action} (abreast : state.Abreast state')
    (performed : state.perform action = .ok after) :
    ∃ after', state'.perform (action.retell new) = .ok after' ∧ after.Abreast after' := by
  cases action with
  | visit id =>
    cases performed
    refine ⟨_, rfl, ?_⟩
    unfold visit
    rw [abreast.visited]
    split
    · exact abreast
    · exact ⟨rfl, abreast.ids⟩
  | publish publication =>
    -- A publication that is told anew has kept its identity, and only identities can collide.
    simp only [WalkState.perform] at performed
    split at performed
    · rename_i free
      cases performed
      have free' : (new.retell publication).id ∉ state'.published.ids := by
        rwa [retell_id, abreast.ids]
      refine ⟨state'.publish (new.retell publication) free', dif_pos free', abreast.visited, ?_⟩
      exact congrArg₂ List.cons retell_id abreast.ids
    · cases performed
  | skip skipped =>
    cases performed
    exact ⟨_, rfl, abreast.visited, abreast.ids⟩
  | refuse problem => cases performed

theorem WalkState.Abreast.performAll {actions : List Action} (abreast : state.Abreast state')
    (performed : state.performAll actions = .ok after) :
    ∃ after', state'.performAll (actions.map (Action.retell new)) = .ok after' ∧
      after.Abreast after' := by
  induction actions generalizing state state' with
  | nil =>
    cases performed
    exact ⟨state', rfl, abreast⟩
  | cons action rest ih =>
    simp only [WalkState.performAll] at performed
    split at performed
    · cases performed
    · rename_i middle first
      obtain ⟨middle', first', abreast'⟩ : ∃ middle',
          state'.perform (action.retell new) = .ok middle' ∧ middle.Abreast middle' :=
        abreast.perform first
      obtain ⟨after', rest', abreast⟩ := ih abreast' performed
      refine ⟨after', ?_, abreast⟩
      rw [List.map_cons, WalkState.performAll, first']
      exact rest'

/-- A run over the first tree is one over the second. -/
theorem Run.reshaped (reshaped : old.Reshaped new) (run : Run old state pending answered final)
    (abreast : state.Abreast state') : ∃ final', Run new state' pending answered final' := by
  induction run generalizing state' with
  | done => exact ⟨state', .done⟩
  | drop seen _ ih =>
    obtain ⟨final', rest⟩ := ih abreast
    exact ⟨final', .drop (abreast.visited ▸ seen) rest⟩
  | @answer _ _ _ task _ _ fresh performed _ ih =>
    obtain ⟨middle', performed', abreast'⟩ := abreast.performAll performed
    obtain ⟨final', rest⟩ := ih abreast'
    have plan := reshaped.plan_eq task
    refine ⟨final', .answer (abreast.visited ▸ fresh) (by rw [plan]; exact performed') ?_⟩
    rw [plan]
    exact rest

theorem Reshaped.emissions_eq (reshaped : old.Reshaped new) :
    new.emissions answered = (old.emissions answered).map new.retell := by
  rw [emissions, emissions, List.map_flatMap]
  refine List.flatMap_congr fun task _ => ?_
  rw [reshaped.plan_eq, Plan.retell, publications_retell]

theorem Reshaped.rootTasks_eq (reshaped : old.Reshaped new) : new.rootTasks = old.rootTasks := by
  obtain ⟨declaration, declared, same⟩ := reshaped.declared (declaration?_rootId new)
  rw [declaration?_rootId, Option.some.injEq] at declared
  rw [← declared] at same
  rw [rootTasks, rootTasks]
  generalize old.root = root, new.root = root' at same ⊢
  cases same
  rfl

end Walks

/-! ## Reports -/

/-- The struct under a number has another shape in the second tree. -/
def OtherShape (old new : Tree) (id : Int) : Prop :=
  ∃ was now, old.declaration? id = some (.struct was) ∧ new.declaration? id = some (.struct now) ∧
    was.shape ≠ now.shape

theorem StructShape.structKind_injective : Function.Injective StructShape.structKind := by
  intro a b same
  cases a <;> cases b <;> first | rfl | cases same

/-- The item of a struct is that of a type, and tells the shape of the struct. -/
theorem Portrays.structKind {tree : Tree} {publication : Publication} {decl : StructDecl}
    (portrays : tree.Portrays publication)
    (declared : tree.declaration? publication.source = some (.struct decl)) :
    ∃ form, publication.item.form = .type form ∧
      form.structKind = some decl.shape.structKind := by
  obtain ⟨entry, found, _, yields⟩ := portrays
  rw [declared_of_found found, Option.some.injEq] at declared
  rw [declared] at yields
  cases isForm : publication.item.form with
  | type form =>
    rw [isForm] at yields
    exact ⟨form, rfl, yields.2.1⟩
  | _ =>
    rw [isForm] at yields
    exact yields.elim

section Reports

variable {old new : Tree} {s s' : Snapshot}

/-- An item is told as before, unless it is that of a struct that has another shape. -/
theorem Reshaped.retell_eq_self (reshaped : old.Reshaped new) {publication : Publication}
    (portrays : old.Portrays publication) (same : ¬old.OtherShape new publication.source) :
    new.retell publication = publication := by
  by_cases told : ∃ now, new.declaration? publication.source = some (.struct now)
  · obtain ⟨now, declared'⟩ := told
    obtain ⟨was, declared, shape⟩ : ∃ was, old.declaration? publication.source =
        some (.struct was) ∧ was.shape = now.shape := by
      obtain ⟨declaration, declared, related⟩ := reshaped.declared declared'
      cases related with
      | refl => exact ⟨now, declared, rfl⟩
      | struct was shape =>
        by_contra differ
        exact same ⟨was, _, declared, declared', fun shape => differ ⟨was, declared, shape⟩⟩
    obtain ⟨form, isType, kind⟩ := portrays.structKind declared
    have kept : publication.item.withStructKind now.shape.structKind = publication.item := by
      rw [Item.withStructKind_of_type isType, ← shape, ← kind, ← isType]
    rw [retell_of_struct declared', kept]
  · exact retell_of_other (not_exists.mp told)

/-- The change that is reported of a struct in another shape. -/
def reshaping (new : Tree) (publication : Publication) : Change :=
  .modified publication.id publication.item (new.retell publication).item true ["struct_kind"]

/-- A struct in another shape says something else than before, in one attribute, which breaks callers. -/
theorem OtherShape.differs {publication : Publication}
    (other : old.OtherShape new publication.source) (portrays : old.Portrays publication) :
    ¬publication.item.Agrees (new.retell publication).item ∧
      publication.item.isBreakingModification (new.retell publication).item = true ∧
      publication.item.differences (new.retell publication).item = ["struct_kind"] := by
  obtain ⟨was, now, declared, declared', differ⟩ := other
  obtain ⟨form, isType, kind⟩ := portrays.structKind declared
  have told : (new.retell publication).item =
      publication.item.withStructKind now.shape.structKind :=
    congrArg Publication.item (retell_of_struct declared')
  have otherKind : form.structKind ≠ some now.shape.structKind := by
    rw [kind]
    exact fun same => differ (StructShape.structKind_injective (Option.some.inj same))
  have changed := Item.changedAttributes_withStructKind isType otherKind
  have sameClass : publication.item.itemClass =
      (publication.item.withStructKind now.shape.structKind).itemClass :=
    Item.itemClass_withStructKind.symm
  rw [told]
  refine ⟨fun agree => ?_, Item.isBreakingModification_withStructKind isType otherKind, ?_⟩
  · rw [(Item.changedAttributes_eq_nil_iff sameClass).mpr agree] at changed
    cases changed
  · rw [Item.differences, if_pos sameClass, changed]

/-- What the snapshots of two trees hold that differ in shapes alone: the second holds what the first
does, told anew. -/
structure Retold (old new : Tree) (s s' : Snapshot) (told : List Publication) : Prop where
  before : ∀ id item, s.get? id = some item ↔
    ∃ publication ∈ told, publication.id = id ∧ publication.item = item
  after : ∀ id item, s'.get? id = some item ↔
    ∃ publication ∈ told, publication.id = id ∧ (new.retell publication).item = item
  distinct : (told.map (·.id)).Nodup
  portrays : ∀ publication ∈ told, old.Portrays publication

/-- Of snapshots that are retold, the changes of structs in another shape are the only ones. -/
theorem Reshaped.classified_iff (reshaped : old.Reshaped new) {told : List Publication}
    (retold : Retold old new s s' told) {change : Change} : Diagnosis.Classified s s' change ↔
      ∃ publication ∈ told, old.OtherShape new publication.source ∧
        change = new.reshaping publication := by
  constructor
  · intro classified
    cases classified with
    | removed held gone =>
      obtain ⟨publication, member, rfl, _⟩ := (retold.before _ _).mp held
      exact absurd ((retold.after _ _).mpr ⟨publication, member, rfl, rfl⟩) (by simp [gone])
    | added held absent =>
      obtain ⟨publication, member, rfl, _⟩ := (retold.after _ _).mp held
      exact absurd ((retold.before _ _).mpr ⟨publication, member, rfl, rfl⟩) (by simp [absent])
    | deprecated before after flagged unflagged =>
      obtain ⟨publication, member, rfl, rfl⟩ := (retold.before _ _).mp before
      obtain ⟨other, member', same, rfl⟩ := (retold.after _ _).mp after
      obtain rfl := List.inj_on_of_nodup_map retold.distinct member' member same
      rw [retell_deprecated, unflagged] at flagged
      cases flagged
    | modified before after differ =>
      -- No identity is told twice, so both snapshots have it from one publication.
      obtain ⟨publication, member, rfl, rfl⟩ := (retold.before _ _).mp before
      obtain ⟨other, member', same, rfl⟩ := (retold.after _ _).mp after
      obtain rfl := List.inj_on_of_nodup_map retold.distinct member' member same
      have portrays := retold.portrays other member
      by_cases reshapes : old.OtherShape new other.source
      · obtain ⟨_, breaks, changed⟩ := reshapes.differs portrays
        refine ⟨other, member, reshapes, ?_⟩
        rw [reshaping, breaks, changed]
      · rw [reshaped.retell_eq_self portrays reshapes] at differ
        exact absurd ⟨rfl, rfl, rfl⟩ differ
  · rintro ⟨publication, member, reshapes, rfl⟩
    obtain ⟨differ, breaks, changed⟩ := reshapes.differs (retold.portrays publication member)
    have before := (retold.before _ _).mpr ⟨publication, member, rfl, rfl⟩
    have after := (retold.after _ _).mpr ⟨publication, member, rfl, rfl⟩
    have modified := Diagnosis.Classified.modified before after differ
    rwa [breaks, changed] at modified

/-- The snapshots of trees that differ in shapes alone are retold along one run. -/
theorem Reshaped.retold (reshaped : old.Reshaped new) {answered : List Task} {final : WalkState}
    (run : Run old .start old.rootTasks answered final)
    (translated' : Snapshot.ofTree? new = .ok s') :
    Retold old new final.published s' (old.emissions answered) := by
  obtain ⟨final', run'⟩ := run.reshaped reshaped ⟨rfl, rfl⟩
  rw [← reshaped.rootTasks_eq] at run'
  have reached := ofTree?_eq_ok_iff.mpr ⟨_, _, run', rfl⟩
  cases translated'.symm.trans reached
  constructor
  case before =>
    intro id item
    rw [Snapshot.get?_eq_some_iff, run.mem_entries]
    simp only [Publication.entry, Prod.mk.injEq]
  case after =>
    intro id item
    rw [Snapshot.get?_eq_some_iff, run'.mem_entries, reshaped.emissions_eq]
    simp only [List.mem_map, exists_exists_and_eq_and, Publication.entry, Prod.mk.injEq, retell_id]
  case distinct => exact run.nodup_ids
  case portrays => exact fun publication member => (run.sourced member).2

theorem Declaration.SameButShape.sameFrame {declaration declaration' : Declaration}
    (same : declaration.SameButShape declaration') (id : Int) :
    declaration.SameFrame id declaration' := by
  cases same with
  | refl => exact .refl id declaration
  | struct => exact .struct rfl rfl rfl
  | variant => exact .variant rfl rfl

theorem Reshaped.editedInPlace (reshaped : old.Reshaped new) : old.EditedInPlace new := by
  intro id
  rcases reshaped.found id with ⟨absent, absent'⟩ | ⟨_, _, _, found, found', same⟩
  · rw [absent, absent']
    exact .none
  · rw [found, found']
    exact .some (same.sameFrame id)

/-- A report of other shapes: of what was told, the structs in another shape are reported as modified,
in a way that breaks callers, and nothing else is; and every reachable struct was told of. -/
structure ReportsShapes (old new : Tree) (s s' : Snapshot) (told : List Publication) : Prop where
  retold : Retold old new s s' told
  exact : ∀ change, change ∈ (Diagnosis.between s s').changes ↔
    ∃ publication ∈ told, old.OtherShape new publication.source ∧ change = new.reshaping publication
  reached : ∀ publication ∈ told, old.Reachable publication.source
  complete : ∀ id, old.Reachable id → old.OtherShape new id →
    ∃ publication ∈ told, publication.source = id

theorem Reshaped.reportsShapes (reshaped : old.Reshaped new) (translated : Snapshot.ofTree? old = .ok s)
    (translated' : Snapshot.ofTree? new = .ok s') :
    ∃ answered final, Run old .start old.rootTasks answered final ∧
      ReportsShapes old new s s' (old.emissions answered) := by
  obtain ⟨answered, final, run, rfl⟩ := ofTree?_eq_ok_iff.mp translated
  have retold := reshaped.retold run translated'
  have visited := (run.tracks (tracks_start old)).mem_visited_iff
  refine ⟨answered, final, run, retold, ?_, ?_, ?_⟩
  · exact fun change => Diagnosis.mem_between.trans (reshaped.classified_iff retold)
  · exact fun publication member => (visited _).mp (run.sourced member).1
  · rintro id reachable ⟨was, _, declared, _⟩
    have fresh : id ∉ WalkState.start.visited := by
      intro root
      rw [List.mem_singleton.mp root, declaration?_rootId] at declared
      cases declared
    exact run.told fresh ((visited id).mpr reachable) declared trivial

section Told

variable {told : List Publication}

/-- Callers are broken exactly if a struct that the root leads to has another shape. -/
theorem ReportsShapes.isBreaking_iff (reports : ReportsShapes old new s s' told) :
    (Diagnosis.between s s').isBreaking = true ↔ ∃ id, old.Reachable id ∧ old.OtherShape new id := by
  rw [Diagnosis.isBreaking, List.any_eq_true]
  constructor
  · rintro ⟨change, member, _⟩
    obtain ⟨publication, member, other, _⟩ := (reports.exact change).mp member
    exact ⟨_, reports.reached publication member, other⟩
  · rintro ⟨id, reachable, other⟩
    obtain ⟨publication, member, rfl⟩ := reports.complete id reachable other
    exact ⟨_, (reports.exact _).mpr ⟨publication, member, other, rfl⟩, rfl⟩

/-- Where no such struct has another shape, nothing is reported, and the snapshots hold the same. -/
theorem ReportsShapes.silent (reports : ReportsShapes old new s s' told) (reshaped : old.Reshaped new)
    (same : ∀ id, old.Reachable id → ¬old.OtherShape new id) :
    (Diagnosis.between s s').changes = [] ∧ ∀ id, s'.get? id = s.get? id := by
  constructor
  · refine List.eq_nil_iff_forall_not_mem.mpr fun change member => ?_
    obtain ⟨publication, member, other, _⟩ := (reports.exact change).mp member
    exact same _ (reports.reached publication member) other
  · have asBefore : ∀ publication ∈ told, new.retell publication = publication :=
      fun publication member => reshaped.retell_eq_self
        (reports.retold.portrays publication member) (same _ (reports.reached publication member))
    refine fun id => Option.ext fun item => ?_
    rw [reports.retold.after, reports.retold.before]
    refine exists_congr fun publication => and_congr_right fun member => ?_
    rw [asBefore publication member]

end Told

end Reports

/-- **Shapes are told of structs alone.** Two trees that differ in the shapes of structs and variants
are refused for the same reason, or the report names each reachable struct that has another shape, as
modified in its kind and breaking callers, and names nothing else. The shape of a variant is not told:
where no struct has another shape, the two snapshots are the same and nothing is reported. -/
theorem shapes_are_told_of_structs_alone {old new : Tree} (reshaped : old.Reshaped new) :
    (∀ problem, Snapshot.ofTree? old = .error problem ↔ Snapshot.ofTree? new = .error problem) ∧
      ∀ s s', Snapshot.ofTree? old = .ok s → Snapshot.ofTree? new = .ok s' →
        (∃ answered final, Run old .start old.rootTasks answered final ∧
          ReportsShapes old new s s' (old.emissions answered)) ∧
        ((Diagnosis.between s s').isBreaking = true ↔
          ∃ id, old.Reachable id ∧ old.OtherShape new id) ∧
        ((∀ id, old.Reachable id → ¬old.OtherShape new id) →
          (Diagnosis.between s s').changes = [] ∧ ∀ id, s'.get? id = s.get? id) := by
  refine ⟨refused_iff_of_edited reshaped.editedInPlace, fun s s' translated translated' => ?_⟩
  obtain ⟨answered, final, run, reports⟩ := reshaped.reportsShapes translated translated'
  exact ⟨⟨answered, final, run, reports⟩, reports.isBreaking_iff, reports.silent reshaped⟩

/-- A struct, and an enumeration of one variant without fields. -/
def signalTree (point : StructShape) (stop : VariantShape) : Tree where
  index := [
    (0, { declaration := .module { name := "demo", items := [1, 3] } }),
    (1, { declaration := .enum { name := "Signal", variants := [2] } }),
    (2, { declaration := .variant { name := "Stop", shape := stop } }),
    (3, { declaration := .struct { name := "Point", shape := point } })]
  root := { name := "demo", items := [1, 3] }
  rooted := rfl

private theorem signalTree_reshaped (point point' : StructShape) (stop stop' : VariantShape) :
    (signalTree point stop).Reshaped (signalTree point' stop') := by
  intro id
  simp only [signalTree, entry?, List.lookup_cons]
  cases id == 0
  · cases id == 1
    · cases id == 2
      · cases id == 3
        · exact .none
        · exact .some ⟨rfl, .struct _ point'⟩
      · exact .some ⟨rfl, .variant _ stop'⟩
    · exact .some ⟨rfl, .refl _⟩
  · exact .some ⟨rfl, .refl _⟩

private theorem signalTree_run (point : StructShape) (stop : VariantShape) :
    ∃ final, Run (signalTree point stop) .start (signalTree point stop).rootTasks
      [⟨1, [], .listed 0⟩, ⟨3, [], .listed 0⟩] final := by
  have second : (3 : Int) ∉ ([2, 1, 0] : List Int) := by decide
  exact ⟨_, .answer (by decide) rfl (.answer second rfl .done)⟩

private theorem signalTree_otherShape_iff {point point' : StructShape} {stop stop' : VariantShape}
    {id : Int} : (signalTree point stop).OtherShape (signalTree point' stop') id ↔
      id = 3 ∧ point ≠ point' := by
  constructor
  · rintro ⟨was, now, declared, declared', differ⟩
    obtain rfl : id = 3 := by
      by_contra elsewhere
      simp only [declaration?, entry?, signalTree, List.lookup_cons,
        beq_false_of_ne elsewhere] at declared
      cases first : id == 0 <;> cases second : id == 1 <;> cases third : id == 2 <;>
        simp [first, second, third] at declared
    cases declared
    cases declared'
    exact ⟨rfl, differ⟩
  · rintro ⟨rfl, differ⟩
    exact ⟨_, _, rfl, rfl, differ⟩

private theorem signalTree_translated (point : StructShape) (stop : VariantShape) :
    ∃ s, Snapshot.ofTree? (signalTree point stop) = .ok s := by
  obtain ⟨final, run⟩ := signalTree_run point stop
  exact ⟨final.published, ofTree?_eq_ok_iff.mpr ⟨_, final, run, rfl⟩⟩

/-- A struct and a variant both become tuples: the struct alone is reported. -/
theorem shapes_are_told_of_structs_alone_point :
    ∃ s s' was now, Snapshot.ofTree? (signalTree .plain .plain) = .ok s ∧
      Snapshot.ofTree? (signalTree .tuple .tuple) = .ok s' ∧
      ∀ change, change ∈ (Diagnosis.between s s').changes ↔
        change = .modified ⟨["Point"], .struct⟩ was now true ["struct_kind"] := by
  obtain ⟨s, translated⟩ := signalTree_translated .plain .plain
  obtain ⟨s', translated'⟩ := signalTree_translated .tuple .tuple
  obtain ⟨final, begun⟩ := signalTree_run .plain .plain
  obtain ⟨⟨answered, _, run, reports⟩, _⟩ :=
    (shapes_are_told_of_structs_alone (signalTree_reshaped .plain .tuple .plain .tuple)).2
      s s' translated translated'
  cases run.unique begun
  obtain ⟨signal, item, emissions⟩ : ∃ signal item, (signalTree .plain .plain).emissions
      [⟨1, [], .listed 0⟩, ⟨3, [], .listed 0⟩] =
        [⟨1, ⟨["Signal"], .enum⟩, signal⟩, ⟨3, ⟨["Point"], .struct⟩, item⟩] := ⟨_, _, rfl⟩
  let now := (signalTree .tuple .tuple).retell ⟨3, ⟨["Point"], .struct⟩, item⟩
  refine ⟨s, s', item, now.item, translated, translated', fun change => ?_⟩
  rw [reports.exact, emissions]
  simp [signalTree_otherShape_iff, reshaping, now]

/-- A variant that becomes a tuple goes unreported: both trees translate and differ in the shape of that
variant alone, which a reachable enumeration lists, and nothing is reported. -/
theorem variant_shape_goes_unreported :
    ∃ s s', Snapshot.ofTree? (signalTree .plain .plain) = .ok s ∧
      Snapshot.ofTree? (signalTree .plain .tuple) = .ok s' ∧
      (signalTree .plain .plain).Reachable 1 ∧
      (signalTree .plain .plain).declaration? 1 =
        some (.enum { name := "Signal", variants := [2] }) ∧
      (signalTree .plain .plain).declaration? 2 =
        some (.variant { name := "Stop", shape := .plain }) ∧
      (signalTree .plain .tuple).declaration? 2 =
        some (.variant { name := "Stop", shape := .tuple }) ∧
      (∀ id, id ≠ 2 →
        entry? (signalTree .plain .tuple) id = entry? (signalTree .plain .plain) id) ∧
      (Diagnosis.between s s').changes = [] := by
  obtain ⟨s, translated⟩ := signalTree_translated .plain .plain
  obtain ⟨s', translated'⟩ := signalTree_translated .plain .tuple
  have reshaped := signalTree_reshaped .plain .plain .plain .tuple
  obtain ⟨_, _, _, reports⟩ := reshaped.reportsShapes translated translated'
  have unreported := (reports.silent reshaped fun id _ => by simp [signalTree_otherShape_iff]).1
  have reachable : (signalTree .plain .plain).Leads rootId 1 :=
    .item (declaration?_rootId _) (by decide) nofun
  refine ⟨s, s', translated, translated', .single reachable, rfl, rfl, rfl, ?_, unreported⟩
  intro id elsewhere
  simp only [signalTree, entry?, List.lookup_cons, beq_false_of_ne elsewhere]

end Tree

end ApiDelta
