import ApiDelta.Proofs.Frames

/-!
Plans over two trees with the same frames. Tasks that match are planned alike, whatever they ask for:
the plan of a task looks at the entry it asks for and at the parts of that entry, and at no more of
these than their frames.
-/
namespace ApiDelta.Tree

variable {pair : Pairing} {id : Int} {path : List String}

/-- Two items made from one entry, which differ at most where the entry or its variants do. -/
theorem counterparts_of_found {deprecated deprecated' : Bool} {declaration declaration' : Declaration}
    (found : pair.first.entry? id = some ⟨deprecated, declaration⟩)
    (found' : pair.second.entry? (pair.scheme id) = some ⟨deprecated', declaration'⟩)
    {name : String} {owner : Option Identity} {form form' : Form}
    (sameClass : (Item.mk name deprecated' owner form').itemClass =
      (Item.mk name deprecated owner form).itemClass)
    (same : pair.Untouched id → declaration' = declaration.renumber pair.scheme → form' = form) :
    Counterparts pair id ⟨name, deprecated, owner, form⟩ ⟨name, deprecated', owner, form'⟩ where
  name := rfl
  owner := rfl
  itemClass := sameClass
  form := fun untouched => same untouched (untouched.itself.declaration_eq found found')
  deprecated := fun flag => flag.deprecated_eq found found'

/-! ## Types -/

section Types

variable {deprecated deprecated' : Bool} {name : String}

theorem typePlan_matches {type : Identity} {parts parts' : List Action} {form form' : TypeForm}
    {impls : List Int} (actions : List.Forall₂ (Action.Matches pair) parts parts')
    (item : Counterparts pair id ⟨name, deprecated, none, .type form⟩
      ⟨name, deprecated', none, .type form'⟩) :
    (typePlan id deprecated type name parts form impls).Matches pair
      (typePlan (pair.scheme id) deprecated' type name parts' form' (impls.map pair.scheme)) := by
  constructor
  · exact .cons .visit (List.rel_append actions (.cons (.publish ⟨rfl, rfl, item⟩) .nil))
  · simp only [typePlan, List.map_map, List.forall₂_map_left_iff, List.forall₂_map_right_iff,
      List.forall₂_same]
    exact fun impl _ => ⟨rfl, rfl, .attached⟩

theorem structPlan_matches {decl decl' : StructDecl}
    (found : pair.first.entry? id = some ⟨deprecated, .struct decl⟩)
    (found' : pair.second.entry? (pair.scheme id) = some ⟨deprecated', .struct decl'⟩)
    (fields : decl'.fields = decl.fields.map pair.scheme)
    (impls : decl'.impls = decl.impls.map pair.scheme)
    (framed : ∀ field ∈ decl.fields, pair.Framed field) :
    (pair.first.structPlan id deprecated path name decl).Matches pair
      (pair.second.structPlan (pair.scheme id) deprecated' path name decl') := by
  unfold structPlan
  rw [fields, impls]
  refine typePlan_matches
    (matches_flatMap fun field member => fieldActions_matches (framed field member))
    (counterparts_of_found found found' rfl fun _ same => ?_)
  cases same
  simp only [fieldNames_eq framed]

theorem unionPlan_matches {decl decl' : UnionDecl}
    (found : pair.first.entry? id = some ⟨deprecated, .union decl⟩)
    (found' : pair.second.entry? (pair.scheme id) = some ⟨deprecated', .union decl'⟩)
    (fields : decl'.fields = decl.fields.map pair.scheme)
    (impls : decl'.impls = decl.impls.map pair.scheme)
    (framed : ∀ field ∈ decl.fields, pair.Framed field) :
    (pair.first.unionPlan id deprecated path name decl).Matches pair
      (pair.second.unionPlan (pair.scheme id) deprecated' path name decl') := by
  unfold unionPlan
  rw [fields, impls]
  refine typePlan_matches
    (matches_flatMap fun field member => fieldActions_matches (framed field member))
    (counterparts_of_found found found' rfl fun _ same => ?_)
  cases same
  simp only [fieldNames_eq framed]

theorem enumPlan_matches {decl decl' : EnumDecl}
    (found : pair.first.entry? id = some ⟨deprecated, .enum decl⟩)
    (found' : pair.second.entry? (pair.scheme id) = some ⟨deprecated', .enum decl'⟩)
    (variants : decl'.variants = decl.variants.map pair.scheme)
    (impls : decl'.impls = decl.impls.map pair.scheme)
    (framed : ∀ variant ∈ decl.variants, pair.Framed variant)
    (fields : ∀ variant ∈ decl.variants, ∀ inner,
      pair.first.declaration? variant = some (.variant inner) →
      ∀ field ∈ inner.fields, pair.Framed field) :
    (pair.first.enumPlan id deprecated path name decl).Matches pair
      (pair.second.enumPlan (pair.scheme id) deprecated' path name decl') := by
  unfold enumPlan
  rw [variants, impls]
  refine typePlan_matches (matches_flatMap fun variant member =>
    variantActions_matches (framed variant member) (fields variant member))
    (counterparts_of_found found found' rfl fun untouched same => ?_)
  have unedited := untouched.variants decl (declared_of_found found)
  cases same
  simp only [variantFieldNames_eq framed fields, variantNames_eq framed,
    anyStripped_eq framed unedited]

end Types

/-! ## Traits and implementations -/

section Members

variable {deprecated deprecated' : Bool} {name : String}

theorem traitPlan_matches {decl decl' : TraitDecl}
    (found : pair.first.entry? id = some ⟨deprecated, .trait decl⟩)
    (found' : pair.second.entry? (pair.scheme id) = some ⟨deprecated', .trait decl'⟩)
    (items : decl'.items = decl.items.map pair.scheme)
    (framed : ∀ item ∈ decl.items, pair.Framed item) :
    (pair.first.traitPlan id deprecated path name decl).Matches pair
      (pair.second.traitPlan (pair.scheme id) deprecated' path name decl') := by
  unfold traitPlan
  rw [items]
  refine ⟨.cons .visit (List.rel_append (matches_flatMap fun item member =>
    memberActions_matches (framed item member)) (.cons (.publish ⟨rfl, rfl, ?_⟩) .nil)), .nil⟩
  refine counterparts_of_found found found' rfl fun _ same => ?_
  cases same
  simp only [memberNames_eq framed]

theorem implPlan_matches {decl decl' : ImplDecl} (type : Identity)
    (found : pair.first.entry? id = some ⟨deprecated, .impl decl⟩)
    (found' : pair.second.entry? (pair.scheme id) = some ⟨deprecated', .impl decl'⟩)
    (same : (Declaration.impl { decl with items := decl.items.map pair.scheme }).SameFrame id
      (.impl decl'))
    (framed : decl.Counts → ∀ item ∈ decl.items, pair.Framed item) :
    (pair.first.implPlan id deprecated type decl).Matches pair
      (pair.second.implPlan (pair.scheme id) deprecated' type decl') := by
  cases same with
  | impl forType trait generics items negative synthetic blanket =>
  have place : implPath decl' type = implPath decl type := by
    simp only [implPath, forType, generics]
  by_cases counts : decl.Counts
  · have counts' : decl'.Counts := by rwa [ImplDecl.Counts, synthetic, blanket]
    have members {path : List String} {parent : String} {owner : Option Identity} :
        List.Forall₂ (Action.Matches pair)
          (decl.items.flatMap (pair.first.memberActions path parent owner id))
          (decl'.items.flatMap (pair.second.memberActions path parent owner (pair.scheme id))) :=
      items ▸ matches_flatMap fun item member => memberActions_matches (framed counts item member)
    cases named : decl.trait with
    | none =>
      rw [implPlan_own counts named, implPlan_own counts' (trait.trans named), place]
      exact ⟨.cons .visit members, .nil⟩
    | some name =>
      have identity : implIdentity decl' type name = implIdentity decl type name := by
        simp only [implIdentity, place, negative]
      rw [implPlan_trait counts named, implPlan_trait counts' (trait.trans named), identity]
      refine ⟨.cons .visit (List.rel_append members (.cons (.publish ⟨rfl, rfl, ?_⟩) .nil)), .nil⟩
      refine counterparts_of_found found found' rfl fun _ same => ?_
      cases same
      simp only [memberNames_eq (framed counts)]
  · have counts' : ¬decl'.Counts := by rwa [ImplDecl.Counts, synthetic, blanket]
    rw [implPlan_passed counts, implPlan_passed counts']
    exact ⟨.cons .visit (.cons .skip .nil), .nil⟩

end Members

/-! ## Items of modules -/

theorem listedTasks_matches (items : List Int) :
    List.Forall₂ (Task.Matches pair) (listedTasks path id items)
      (listedTasks path (pair.scheme id) (items.map pair.scheme)) := by
  simp only [listedTasks, List.map_map, List.forall₂_map_left_iff, List.forall₂_map_right_iff,
    List.forall₂_same]
  exact fun item _ => ⟨rfl, rfl, .listed⟩

theorem publishPlan_matches {kind : IdKind} {item item' : Item}
    (same : Counterparts pair id item item') :
    (publishPlan id path kind item).Matches pair
      (publishPlan (pair.scheme id) path kind item') := by
  have place : (⟨path ++ [item'.name], kind⟩ : Identity) = ⟨path ++ [item.name], kind⟩ := by
    rw [same.name]
  exact ⟨.cons .visit (.cons (.publish ⟨rfl, place, same⟩) .nil), .nil⟩

theorem reexportPlan_matches {decl decl' : ReexportDecl} (name : decl'.name = decl.name)
    (target : decl'.target = decl.target.map pair.scheme) (glob : decl'.glob = decl.glob) :
    (reexportPlan id path decl).Matches pair (reexportPlan (pair.scheme id) path decl') := by
  unfold reexportPlan
  rw [target, glob, name]
  cases decl.target with
  | none => exact ⟨.cons .visit (.cons .skip .nil), .nil⟩
  | some aim =>
    refine ⟨.cons .visit .nil, .cons ⟨rfl, rfl, ?_⟩ .nil⟩
    cases decl.glob with
    | true => exact .spliced
    | false => exact .named

/-- An entry other than the root is planned alike in both trees if all that it leads to has the same
frame. -/
theorem itemPlan_matches {entry entry' : Entry} (path : List String) (givenName : Option String)
    (found : pair.first.entry? id = some entry)
    (found' : pair.second.entry? (pair.scheme id) = some entry') (inner : id ≠ rootId)
    (same : (entry.declaration.renumber pair.scheme).SameFrame id entry'.declaration)
    (within : ∀ child, Relation.ReflTransGen pair.first.Leads id child → pair.Framed child) :
    (pair.first.itemPlan id entry path givenName).Matches pair
      (pair.second.itemPlan (pair.scheme id) entry' path givenName) := by
  obtain ⟨deprecated, declaration⟩ := entry
  obtain ⟨deprecated', declaration'⟩ := entry'
  have declared := declared_of_found found
  have parts : ∀ part ∈ declaration.parts, pair.Framed part :=
    fun part member => within part (.single (.part declared member))
  cases declaration with
  | module decl =>
    cases same with
    | module name items =>
    simp only [itemPlan, name inner, items]
    exact ⟨.cons .visit .nil, listedTasks_matches decl.items⟩
  | struct decl =>
    cases same with
    | struct name fields impls =>
    simp only [itemPlan, name]
    exact structPlan_matches found found' fields impls fun field member =>
      parts field (List.mem_append_left _ member)
  | union decl =>
    cases same with
    | union name fields impls =>
    simp only [itemPlan, name]
    exact unionPlan_matches found found' fields impls fun field member =>
      parts field (List.mem_append_left _ member)
  | enum decl =>
    cases same with
    | enum name variants impls =>
    simp only [itemPlan, name]
    refine enumPlan_matches found found' variants impls
      (fun variant member => parts variant (List.mem_append_left _ member)) ?_
    intro variant member inner declared' field listed
    have part : pair.first.Leads id variant := .part declared (List.mem_append_left _ member)
    exact within field (.tail (.single part) (.part declared' listed))
  | trait decl =>
    cases same with
    | trait name items =>
    simp only [itemPlan, name]
    exact traitPlan_matches found found' items parts
  | reexport decl =>
    cases same with
    | reexport name target glob => exact reexportPlan_matches name target glob
  | function | method | typedef | constant | static =>
    cases same
    rename_i name
    simp only [itemPlan, name]
    refine publishPlan_matches (counterparts_of_found found found' rfl fun _ same => ?_)
    cases same
    rfl
  | inert =>
    cases same
    exact ⟨.cons .visit (.cons .skip .nil), .nil⟩
  | variant | structField | impl | assocType | assocConst =>
    cases same
    exact ⟨.cons .visit (.cons .refuse .nil), .nil⟩

/-! ## Tasks -/

section Tasks

variable {entry entry' : Entry} {referrer importer : Int} {name source source' : String}
  {type : Identity}

/-- A task for a number that leads nowhere is refused if a list has the number, and passed over if a
re-export does. -/
theorem plan_matches_of_absent {via via' : Via} (absent : pair.first.entry? id = none)
    (absent' : pair.second.entry? (pair.scheme id) = none) (same : via.Matches pair via') :
    (pair.first.plan ⟨id, path, via⟩).Matches pair
      (pair.second.plan ⟨pair.scheme id, path, via'⟩) := by
  cases same <;> simp only [plan, absent, absent']
  case listed | attached => exact ⟨.cons .refuse .nil, .nil⟩
  case named | spliced => exact ⟨.cons .skip .nil, .nil⟩

theorem listedPlan_matches (found : pair.first.entry? id = some entry)
    (found' : pair.second.entry? (pair.scheme id) = some entry') (inner : id ≠ rootId)
    (frame : (entry.declaration.renumber pair.scheme).SameFrame id entry'.declaration)
    (within : (∀ block, pair.first.declaration? id ≠ some (.impl block)) →
      ∀ child, Relation.ReflTransGen pair.first.Leads id child → pair.Framed child) :
    (pair.first.plan ⟨id, path, .listed referrer⟩).Matches pair
      (pair.second.plan ⟨pair.scheme id, path, .listed (pair.scheme referrer)⟩) := by
  have declared := declared_of_found found
  obtain ⟨deprecated, declaration⟩ := entry
  obtain ⟨deprecated', declaration'⟩ := entry'
  cases declaration with
  | impl decl =>
    cases frame
    simp only [plan, found, found']
    exact ⟨.nil, .nil⟩
  | _ =>
    have heeded := within fun block => by simp [declared]
    have planned := itemPlan_matches path none found found' inner frame heeded
    cases frame
    simpa only [plan, found, found'] using planned

theorem namedPlan_matches (found : pair.first.entry? id = some entry)
    (found' : pair.second.entry? (pair.scheme id) = some entry') (inner : id ≠ rootId)
    (frame : (entry.declaration.renumber pair.scheme).SameFrame id entry'.declaration)
    (within : ∀ child, Relation.ReflTransGen pair.first.Leads id child → pair.Framed child) :
    (pair.first.plan ⟨id, path, .named importer name source⟩).Matches pair
      (pair.second.plan ⟨pair.scheme id, path, .named (pair.scheme importer) name source'⟩) := by
  obtain ⟨deprecated, declaration⟩ := entry
  obtain ⟨deprecated', declaration'⟩ := entry'
  cases declaration with
  | impl decl =>
    cases frame
    simp only [plan, found, found']
    exact ⟨.cons .refuse .nil, .nil⟩
  | _ =>
    have planned := itemPlan_matches path (some name) found found' inner frame within
    cases frame
    simpa only [plan, found, found'] using planned

theorem splicedPlan_matches (found : pair.first.entry? id = some entry)
    (found' : pair.second.entry? (pair.scheme id) = some entry')
    (frame : (entry.declaration.renumber pair.scheme).SameFrame id entry'.declaration) :
    (pair.first.plan ⟨id, path, .spliced source⟩).Matches pair
      (pair.second.plan ⟨pair.scheme id, path, .spliced source'⟩) := by
  obtain ⟨deprecated, declaration⟩ := entry
  obtain ⟨deprecated', declaration'⟩ := entry'
  cases declaration with
  | module decl =>
    cases frame with
    | module _ items =>
    simp only [plan, found, found', items]
    exact ⟨.cons .visit .nil, listedTasks_matches decl.items⟩
  | _ =>
    cases frame
    simp only [plan, found, found']
    exact ⟨.cons .skip .nil, .nil⟩

theorem attachedPlan_matches (found : pair.first.entry? id = some entry)
    (found' : pair.second.entry? (pair.scheme id) = some entry')
    (frame : (entry.declaration.renumber pair.scheme).SameFrame id entry'.declaration)
    (within : ∀ child, Relation.ReflTransGen pair.first.Leads id child → pair.Framed child) :
    (pair.first.plan ⟨id, path, .attached type referrer⟩).Matches pair
      (pair.second.plan ⟨pair.scheme id, path, .attached type (pair.scheme referrer)⟩) := by
  have declared := declared_of_found found
  obtain ⟨deprecated, declaration⟩ := entry
  obtain ⟨deprecated', declaration'⟩ := entry'
  cases declaration with
  | impl decl =>
    have framed : decl.Counts → ∀ item ∈ decl.items, pair.Framed item := by
      intro counts item member
      have part : item ∈ (Declaration.impl decl).parts := by
        simpa only [Declaration.parts, if_pos counts] using member
      exact within item (.single (.part declared part))
    obtain ⟨decl', rfl⟩ : ∃ decl', declaration' = .impl decl' := by
      cases frame
      exact ⟨_, rfl⟩
    have planned := implPlan_matches type found found' frame framed
    simpa only [plan, found, found'] using planned
  | _ =>
    cases frame
    simp only [plan, found, found']
    exact ⟨.cons .refuse .nil, .nil⟩

/-- Tasks that match are planned alike, if what they ask for has the same frame in both trees, and, in
case they are heeded, all that it leads to. -/
theorem plan_matches {task task' : Task} (same : task.Matches pair task') (inner : task.id ≠ rootId)
    (here : pair.Framed task.id)
    (within : pair.first.Heeds task →
      ∀ child, Relation.ReflTransGen pair.first.Leads task.id child → pair.Framed child) :
    (pair.first.plan task).Matches pair (pair.second.plan task') := by
  obtain ⟨id, path, via⟩ := task
  obtain ⟨id', path', via'⟩ := task'
  cases same with
  | mk moved kept vias =>
  cases moved
  cases kept
  rcases here.found with ⟨absent, absent'⟩ | ⟨entry, entry', found, found', frame⟩
  · exact plan_matches_of_absent absent absent' vias
  · cases vias with
    | listed => exact listedPlan_matches found found' inner frame within
    | named => exact namedPlan_matches found found' inner frame (within (by simp [found]))
    | spliced => exact splicedPlan_matches found found' frame
    | attached => exact attachedPlan_matches found found' frame (within trivial)

end Tasks

end ApiDelta.Tree
