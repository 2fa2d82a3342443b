import ApiDelta.Proofs.Families
import ApiDelta.Proofs.Refusals

/-!
Trees whose lists stand in another order. Types list their fields and variants, variants their fields,
traits and implementations their members; a second tree may have each of these lists in another order,
and, if asked for, the items of modules and the implementations of types as well. The plan of a task then
has the same actions in another order, because whatever an owner records is sorted.
-/
namespace ApiDelta.Tree

/-- A list in another order if it is free, and else the same list. -/
def Rearranged {α : Type} (free : Bool) (list list' : List α) : Prop :=
  if free then list.Perm list' else list = list'

section Rearranged

variable {α β : Type} {free : Bool} {list list' : List α}

theorem Rearranged.refl (list : List α) : Rearranged free list list := by
  cases free
  · exact rfl
  · exact List.Perm.refl list

theorem Rearranged.symm (rearranged : Rearranged free list list') : Rearranged free list' list := by
  cases free
  · exact Eq.symm rearranged
  · exact List.Perm.symm rearranged

theorem Rearranged.perm (rearranged : Rearranged free list list') : list.Perm list' := by
  cases free
  · exact .of_eq rearranged
  · exact rearranged

theorem Rearranged.map (rearranged : Rearranged free list list') (f : α → β) :
    Rearranged free (list.map f) (list'.map f) := by
  cases free
  · exact congrArg (List.map f) rearranged
  · exact List.Perm.map f rearranged

end Rearranged

/-- Two declarations that differ in the order of their lists: of fields, variants and members at most,
and if it is free, of module items and implementations too. -/
inductive Declaration.Reordered (free : Bool) : Declaration → Declaration → Prop where
  | same (declaration : Declaration) : Reordered free declaration declaration
  | module {decl : ModuleDecl} {items : List Int} (listed : Rearranged free decl.items items) :
      Reordered free (.module decl) (.module { decl with items := items })
  | struct {decl : StructDecl} {fields impls : List Int} (held : decl.fields.Perm fields)
      (listed : Rearranged free decl.impls impls) :
      Reordered free (.struct decl) (.struct { decl with fields := fields, impls := impls })
  | union {decl : UnionDecl} {fields impls : List Int} (held : decl.fields.Perm fields)
      (listed : Rearranged free decl.impls impls) :
      Reordered free (.union decl) (.union { decl with fields := fields, impls := impls })
  | enum {decl : EnumDecl} {variants impls : List Int} (held : decl.variants.Perm variants)
      (listed : Rearranged free decl.impls impls) :
      Reordered free (.enum decl) (.enum { decl with variants := variants, impls := impls })
  | variant {decl : VariantDecl} {fields : List Int} (held : decl.fields.Perm fields) :
      Reordered free (.variant decl) (.variant { decl with fields := fields })
  | trait {decl : TraitDecl} {items : List Int} (held : decl.items.Perm items) :
      Reordered free (.trait decl) (.trait { decl with items := items })
  | impl {decl : ImplDecl} {items : List Int} (held : decl.items.Perm items) :
      Reordered free (.impl decl) (.impl { decl with items := items })

structure Entry.Reordered (free : Bool) (entry entry' : Entry) : Prop where
  deprecated : entry'.deprecated = entry.deprecated
  declaration : entry.declaration.Reordered free entry'.declaration

/-- Two trees with the same entries, but for the order of their lists. -/
def Reordered (free : Bool) (tree other : Tree) : Prop :=
  ∀ id, Option.Rel (Entry.Reordered free) (tree.entry? id) (other.entry? id)

/-- Two plans with the same actions in another order, and with the same further tasks, in another order
at most if it is free. -/
structure Plan.Reordered (free : Bool) (plan plan' : Plan) : Prop where
  actions : plan.actions.Perm plan'.actions
  next : Rearranged free plan.next plan'.next

theorem Plan.Reordered.refl {free : Bool} (plan : Plan) : plan.Reordered free plan :=
  ⟨.refl _, .refl _⟩

theorem Plan.Reordered.of_eq {free : Bool} {plan plan' : Plan} (same : plan = plan') :
    plan.Reordered free plan' :=
  same ▸ .refl plan

theorem Declaration.Reordered.symm {free : Bool} {declaration declaration' : Declaration}
    (same : declaration.Reordered free declaration') : declaration'.Reordered free declaration := by
  cases same with
  | same => exact .same _
  | @module decl items listed =>
    exact @Declaration.Reordered.module free { decl with items := items } decl.items listed.symm
  | @struct decl fields impls held listed =>
    exact @Declaration.Reordered.struct free { decl with fields := fields, impls := impls } decl.fields
      decl.impls held.symm listed.symm
  | @union decl fields impls held listed =>
    exact @Declaration.Reordered.union free { decl with fields := fields, impls := impls } decl.fields
      decl.impls held.symm listed.symm
  | @enum decl variants impls held listed =>
    exact @Declaration.Reordered.enum free { decl with variants := variants, impls := impls } decl.variants
      decl.impls held.symm listed.symm
  | @variant decl fields held =>
    exact @Declaration.Reordered.variant free { decl with fields := fields } decl.fields held.symm
  | @trait decl items held =>
    exact @Declaration.Reordered.trait free { decl with items := items } decl.items held.symm
  | @impl decl items held =>
    exact @Declaration.Reordered.impl free { decl with items := items } decl.items held.symm

theorem Declaration.Reordered.kind_eq {free : Bool} {declaration declaration' : Declaration}
    (same : declaration.Reordered free declaration') : declaration'.kind = declaration.kind := by
  cases same <;> rfl

theorem sortTexts_eq_of_perm {texts others : List String} (perm : texts.Perm others) :
    sortTexts others = sortTexts texts := by
  have sorted := (records_sortTexts (rfl : texts = texts)).of_perm perm
  have sorted' := records_sortTexts (rfl : others = others)
  exact (sorted'.2.trans sorted.2.symm).eq_of_pairwise (fun _ _ _ _ => String.le_antisymm) sorted'.1 sorted.1

section Reordered

variable {free : Bool} {tree other : Tree} {type : Identity} {path : List String}
  {referrer id : Int} {ids ids' : List Int}

theorem Reordered.symm (same : tree.Reordered free other) : other.Reordered free tree := by
  intro id
  have entries := same id
  generalize tree.entry? id = found, other.entry? id = found' at entries ⊢
  cases entries with
  | none => exact .none
  | some entry => exact .some ⟨entry.deprecated.symm, entry.declaration.symm⟩

/-- An entry is in both trees or in neither. -/
theorem Reordered.found (same : tree.Reordered free other) (id : Int) :
    (tree.entry? id = none ∧ other.entry? id = none) ∨
      ∃ deprecated declaration declaration', tree.entry? id = some ⟨deprecated, declaration⟩ ∧
        other.entry? id = some ⟨deprecated, declaration'⟩ ∧
        declaration.Reordered free declaration' := by
  have entries := same id
  generalize tree.entry? id = found, other.entry? id = found' at entries ⊢
  cases entries with
  | none => exact .inl ⟨rfl, rfl⟩
  | @some entry entry' entries =>
    obtain ⟨deprecated, declaration⟩ := entry
    obtain ⟨deprecated', declaration'⟩ := entry'
    cases entries.deprecated
    exact .inr ⟨_, _, _, rfl, rfl, entries.declaration⟩

/-! ## Parts -/

theorem field?_reordered (same : tree.Reordered free other) :
    other.field? referrer id = tree.field? referrer id := by
  unfold field?
  rcases same.found id with ⟨absent, absent'⟩ | ⟨_, _, _, found, found', declarations⟩
  · rw [absent, absent']
  · rw [found, found']
    cases declarations <;> rfl

theorem member?_reordered (same : tree.Reordered free other) {parent : String}
    {owner : Option Identity} :
    other.member? parent owner referrer id = tree.member? parent owner referrer id := by
  unfold member?
  rcases same.found id with ⟨absent, absent'⟩ | ⟨_, _, _, found, found', declarations⟩
  · rw [absent, absent']
  · rw [found, found']
    cases declarations <;> rfl

/-- A variant may have its fields in another order. -/
theorem variant?_reordered (same : tree.Reordered free other) (referrer id : Int) :
    (∃ problem, tree.variant? referrer id = .error problem ∧
      other.variant? referrer id = .error problem) ∨
    ∃ decl fields, tree.variant? referrer id = .ok decl ∧
      other.variant? referrer id = .ok { decl with fields := fields } ∧ decl.fields.Perm fields := by
  unfold variant?
  rcases same.found id with ⟨absent, absent'⟩ | ⟨_, declaration, _, found, found', declarations⟩
  · rw [absent, absent']
    exact .inl ⟨_, rfl, rfl⟩
  · rw [found, found']
    cases declarations with
    | same =>
      cases declaration with
      | variant decl => exact .inr ⟨decl, decl.fields, rfl, rfl, .refl _⟩
      | _ => exact .inl ⟨_, rfl, rfl⟩
    | @variant decl fields held => exact .inr ⟨decl, fields, rfl, rfl, held⟩
    | _ => exact .inl ⟨_, rfl, rfl⟩

theorem fields_reordered (same : tree.Reordered free other) (held : ids.Perm ids') :
    (ids.flatMap (tree.fieldActions type path referrer)).Perm
      (ids'.flatMap (other.fieldActions type path referrer)) := by
  have actions : other.fieldActions type path referrer = tree.fieldActions type path referrer := by
    funext id
    unfold fieldActions
    rw [field?_reordered same]
  rw [actions]
  exact held.flatMap_right _

theorem fieldNames_reordered (same : tree.Reordered free other) (held : ids.Perm ids')
    (referrer : Int) :
    (tree.fieldNames referrer ids).Perm (other.fieldNames referrer ids') := by
  unfold fieldNames
  simp only [field?_reordered same]
  exact held.filterMap _

theorem members_reordered (same : tree.Reordered free other) {parent : String}
    {owner : Option Identity} (held : ids.Perm ids') :
    (ids.flatMap (tree.memberActions path parent owner referrer)).Perm
      (ids'.flatMap (other.memberActions path parent owner referrer)) := by
  have actions : other.memberActions path parent owner referrer =
      tree.memberActions path parent owner referrer := by
    funext id
    unfold memberActions
    rw [member?_reordered same]
  rw [actions]
  exact held.flatMap_right _

theorem memberNames_reordered (same : tree.Reordered free other) (held : ids.Perm ids')
    (referrer : Int) :
    (tree.memberNames referrer ids).Perm (other.memberNames referrer ids') := by
  unfold memberNames
  simp only [member?_reordered same]
  exact held.filterMap _

theorem variantActions_reordered (same : tree.Reordered free other) :
    (tree.variantActions type referrer id).Perm (other.variantActions type referrer id) := by
  unfold variantActions
  rcases variant?_reordered same referrer id with
    ⟨problem, led, led'⟩ | ⟨decl, fields, led, led', held⟩
  · rw [led, led']
  · rw [led, led']
    exact (fields_reordered same held).cons _

theorem variants_reordered (same : tree.Reordered free other) (held : ids.Perm ids') :
    (ids.flatMap (tree.variantActions type referrer)).Perm
      (ids'.flatMap (other.variantActions type referrer)) :=
  (held.flatMap_right _).trans
    (List.Perm.flatMap_left _ fun _ _ => variantActions_reordered same)

/-- What is read off a variant apart from its fields. -/
theorem map_variants_reordered {α : Type} (same : tree.Reordered free other) (held : ids.Perm ids')
    (referrer : Int) (read : VariantDecl → α)
    (fieldless : ∀ decl fields, read { decl with fields := fields } = read decl) :
    ((tree.variants referrer ids).map (read ·.2)).Perm
      ((other.variants referrer ids').map (read ·.2)) := by
  unfold variants
  rw [List.map_filterMap, List.map_filterMap]
  refine (held.filterMap _).trans (.of_eq (List.filterMap_congr fun id _ => ?_))
  rcases variant?_reordered same referrer id with ⟨problem, led, led'⟩ | ⟨decl, fields, led, led', _⟩
  · rw [led, led']
  · rw [led, led']
    exact congrArg some (fieldless decl fields).symm

theorem variantFieldNames_reordered (same : tree.Reordered free other) (held : ids.Perm ids') :
    (tree.variantFieldNames referrer ids).Perm (other.variantFieldNames referrer ids') := by
  unfold variantFieldNames variants
  rw [List.filterMap_eq_flatMap_toList, List.filterMap_eq_flatMap_toList, List.flatMap_assoc,
    List.flatMap_assoc]
  refine (held.flatMap_right _).trans (List.Perm.flatMap_left _ fun id _ => ?_)
  rcases variant?_reordered same referrer id with
    ⟨problem, led, led'⟩ | ⟨decl, fields, led, led', held⟩
  · rw [led, led']
    exact .refl _
  · rw [led, led']
    have names := (fieldNames_reordered same held id).map fun name =>
      decl.name ++ "::" ++ name
    simpa [Except.toOption] using names

/-! ## Plans -/

variable {deprecated : Bool} {name : String}

theorem typePlan_reordered {parts parts' : List Action} {form form' : TypeForm}
    {impls impls' : List Int} (held : parts.Perm parts') (forms : form' = form)
    (listed : Rearranged free impls impls') :
    (typePlan id deprecated type name parts form impls).Reordered free
      (typePlan id deprecated type name parts' form' impls') := by
  subst forms
  exact ⟨(held.cons _).append_right _, listed.map _⟩

theorem structPlan_reordered (same : tree.Reordered free other) {decl : StructDecl}
    {fields impls : List Int} (held : decl.fields.Perm fields)
    (listed : Rearranged free decl.impls impls) :
    (tree.structPlan id deprecated path name decl).Reordered free
      (other.structPlan id deprecated path name { decl with fields := fields, impls := impls }) := by
  refine typePlan_reordered (fields_reordered same held) ?_ listed
  rw [sortTexts_eq_of_perm (fieldNames_reordered same held id)]

theorem unionPlan_reordered (same : tree.Reordered free other) {decl : UnionDecl}
    {fields impls : List Int} (held : decl.fields.Perm fields)
    (listed : Rearranged free decl.impls impls) :
    (tree.unionPlan id deprecated path name decl).Reordered free
      (other.unionPlan id deprecated path name { decl with fields := fields, impls := impls }) := by
  refine typePlan_reordered (fields_reordered same held) ?_ listed
  rw [sortTexts_eq_of_perm (fieldNames_reordered same held id)]

theorem enumPlan_reordered (same : tree.Reordered free other) {decl : EnumDecl}
    {variants impls : List Int} (held : decl.variants.Perm variants)
    (listed : Rearranged free decl.impls impls) :
    (tree.enumPlan id deprecated path name decl).Reordered free
      (other.enumPlan id deprecated path name
        { decl with variants := variants, impls := impls }) := by
  have names := sortTexts_eq_of_perm
    (map_variants_reordered same held id VariantDecl.name fun _ _ => rfl)
  have stripped := (map_variants_reordered same held id VariantDecl.fieldsStripped
    fun _ _ => rfl).any_eq (f := fun stripped => stripped)
  rw [List.any_map, List.any_map] at stripped
  refine typePlan_reordered (variants_reordered same held) ?_ listed
  rw [sortTexts_eq_of_perm (variantFieldNames_reordered same held), names]
  exact congrArg (fun hidden => TypeForm.mk _ _ _ _ _ (decl.variantsStripped || hidden) _)
    stripped.symm

theorem traitPlan_reordered (same : tree.Reordered free other) {decl : TraitDecl} {items : List Int}
    (held : decl.items.Perm items) :
    (tree.traitPlan id deprecated path name decl).Reordered free
      (other.traitPlan id deprecated path name { decl with items := items }) := by
  have names := sortTexts_eq_of_perm ((memberNames_reordered same held id).map Prod.snd)
  unfold traitPlan
  rw [names]
  exact ⟨((members_reordered same held).cons _).append_right _, .refl _⟩

theorem traitImplItem_reordered (same : tree.Reordered free other) {decl : ImplDecl}
    {items : List Int} (held : decl.items.Perm items) {trait : String} :
    other.traitImplItem id deprecated { decl with items := items } trait =
      tree.traitImplItem id deprecated decl trait := by
  have members := memberNames_reordered same held id
  simp only [traitImplItem, sortTexts_eq_of_perm ((members.filter _).map Prod.snd)]

/-- The items of a block do not tell whether it counts, nor under which paths they stand. -/
theorem implPlan_reordered (same : tree.Reordered free other) {decl : ImplDecl} {items : List Int}
    (held : decl.items.Perm items) :
    (tree.implPlan id deprecated type decl).Reordered free
      (other.implPlan id deprecated type { decl with items := items }) := by
  let decl' : ImplDecl := { decl with items := items }
  show (tree.implPlan id deprecated type decl).Reordered free (other.implPlan id deprecated type decl')
  by_cases counts : decl.Counts
  · have counts' : decl'.Counts := counts
    rcases Option.eq_none_or_eq_some decl.trait with own | ⟨trait, named⟩
    · rw [implPlan_own counts own, implPlan_own counts' own]
      exact ⟨(members_reordered same held).cons _, .refl _⟩
    · rw [implPlan_trait counts named, implPlan_trait counts' named,
        traitImplItem_reordered same held]
      exact ⟨((members_reordered same held).cons _).append_right _, .refl _⟩
  · have counts' : ¬decl'.Counts := counts
    rw [implPlan_passed counts, implPlan_passed counts']
    exact .refl _

theorem itemPlan_reordered (same : tree.Reordered free other) {declaration declaration' : Declaration}
    (declarations : declaration.Reordered free declaration') {givenName : Option String} :
    (tree.itemPlan id ⟨deprecated, declaration⟩ path givenName).Reordered free
      (other.itemPlan id ⟨deprecated, declaration'⟩ path givenName) := by
  cases declarations with
  | same =>
    cases declaration with
    | struct decl => exact structPlan_reordered same (.refl _) (.refl _)
    | union decl => exact unionPlan_reordered same (.refl _) (.refl _)
    | enum decl => exact enumPlan_reordered same (.refl _) (.refl _)
    | trait decl => exact traitPlan_reordered same (.refl _)
    | _ => exact .refl _
  | module listed => exact ⟨.refl _, listed.map _⟩
  | struct held listed => exact structPlan_reordered same held listed
  | union held listed => exact unionPlan_reordered same held listed
  | enum held listed => exact enumPlan_reordered same held listed
  | trait held => exact traitPlan_reordered same held
  | variant | impl => exact .refl _

/-- Only a block of implementations is one in another order. -/
theorem Declaration.Reordered.block_or_not {declaration declaration' : Declaration}
    (declarations : declaration.Reordered free declaration') :
    (∃ decl items, declaration = .impl decl ∧ declaration' = .impl { decl with items := items } ∧
      decl.items.Perm items) ∨
    (∀ block, declaration ≠ .impl block) ∧ ∀ block, declaration' ≠ .impl block := by
  cases declarations with
  | same =>
    cases declaration with
    | impl decl => exact .inl ⟨decl, decl.items, rfl, rfl, .refl _⟩
    | _ => exact .inr ⟨nofun, nofun⟩
  | impl held => exact .inl ⟨_, _, rfl, rfl, held⟩
  | _ => exact .inr ⟨nofun, nofun⟩

theorem plan_attached_of_item {declaration : Declaration}
    (found : tree.entry? id = some ⟨deprecated, declaration⟩)
    (noImpl : ∀ block, declaration ≠ .impl block) :
    tree.plan ⟨id, path, .attached type referrer⟩ =
      { actions := [.refuse (.misplaced id declaration.kind (.implOf referrer))] } := by
  cases declaration with
  | impl block => exact absurd rfl (noImpl block)
  | _ => simp only [plan, found]

/-- One task has the same actions in both trees, in another order, and the same further tasks. -/
theorem plan_reordered (same : tree.Reordered free other) (task : Task) :
    (tree.plan task).Reordered free (other.plan task) := by
  obtain ⟨id, path, via⟩ := task
  rcases same.found id with
    ⟨absent, absent'⟩ | ⟨deprecated, declaration, declaration', found, found', declarations⟩
  · refine .of_eq ?_
    cases via <;> simp only [plan, absent, absent']
  · cases via with
    | listed referrer =>
      rcases declarations.block_or_not with ⟨decl, items, rfl, rfl, held⟩ | ⟨noImpl, noImpl'⟩
      · simp only [plan, found, found']
        exact .refl _
      · rw [plan_listed found noImpl, plan_listed found' noImpl']
        exact itemPlan_reordered same declarations
    | named importer name source =>
      rcases declarations.block_or_not with ⟨decl, items, rfl, rfl, held⟩ | ⟨noImpl, noImpl'⟩
      · simp only [plan, found, found']
        exact .refl _
      · rw [plan_named found noImpl, plan_named found' noImpl']
        exact itemPlan_reordered same declarations
    | spliced source =>
      simp only [plan, found, found']
      cases declarations with
      | module listed => exact ⟨.refl _, listed.map _⟩
      | _ => exact .refl _
    | attached type referrer =>
      rcases declarations.block_or_not with ⟨decl, items, rfl, rfl, held⟩ | ⟨noImpl, noImpl'⟩
      · simp only [plan, found, found']
        exact implPlan_reordered same held
      · rw [plan_attached_of_item found noImpl, plan_attached_of_item found' noImpl',
          declarations.kind_eq]
        exact .refl _

end Reordered

end ApiDelta.Tree
