import Mathlib.Data.List.Forall2
import ApiDelta.Proofs.Links
import ApiDelta.Proofs.Renumbering

/-!
What of a tree decides the course of a walk. The frame of a declaration is its kind, its name and what
it refers to, and of a block of implementations also what gives it its place and whether it counts.
Two trees with the same frames, under the same numbers or others, are planned alike: the plans visit,
publish and refuse the same in the same order, and differ at most in what the published items say. And
an item says the same in both if nothing was edited in the entry that it tells of, nor, for an
enumeration, in a variant.
-/
namespace ApiDelta.Tree

/-- Two declarations have the same frame, under a number. The name of the root module is no part of its
frame, since it names no path. -/
inductive Declaration.SameFrame (id : Int) : Declaration → Declaration → Prop where
  | module {decl decl' : ModuleDecl} (name : id ≠ rootId → decl'.name = decl.name)
      (items : decl'.items = decl.items) : SameFrame id (.module decl) (.module decl')
  | function {decl decl' : FunctionDecl} (name : decl'.name = decl.name) :
      SameFrame id (.function decl) (.function decl')
  | method {decl decl' : FunctionDecl} (name : decl'.name = decl.name) :
      SameFrame id (.method decl) (.method decl')
  | struct {decl decl' : StructDecl} (name : decl'.name = decl.name)
      (fields : decl'.fields = decl.fields) (impls : decl'.impls = decl.impls) :
      SameFrame id (.struct decl) (.struct decl')
  | union {decl decl' : UnionDecl} (name : decl'.name = decl.name)
      (fields : decl'.fields = decl.fields) (impls : decl'.impls = decl.impls) :
      SameFrame id (.union decl) (.union decl')
  | enum {decl decl' : EnumDecl} (name : decl'.name = decl.name)
      (variants : decl'.variants = decl.variants) (impls : decl'.impls = decl.impls) :
      SameFrame id (.enum decl) (.enum decl')
  | variant {decl decl' : VariantDecl} (name : decl'.name = decl.name)
      (fields : decl'.fields = decl.fields) : SameFrame id (.variant decl) (.variant decl')
  | structField {decl decl' : FieldDecl} (name : decl'.name = decl.name) :
      SameFrame id (.structField decl) (.structField decl')
  | typedef {decl decl' : TypedefDecl} (name : decl'.name = decl.name) :
      SameFrame id (.typedef decl) (.typedef decl')
  | trait {decl decl' : TraitDecl} (name : decl'.name = decl.name)
      (items : decl'.items = decl.items) : SameFrame id (.trait decl) (.trait decl')
  | impl {decl decl' : ImplDecl} (forType : decl'.forType = decl.forType)
      (trait : decl'.trait = decl.trait) (generics : decl'.generics = decl.generics)
      (items : decl'.items = decl.items) (negative : decl'.negative = decl.negative)
      (synthetic : decl'.synthetic = decl.synthetic) (blanket : decl'.blanket = decl.blanket) :
      SameFrame id (.impl decl) (.impl decl')
  | assocType {decl decl' : AssocTypeDecl} (name : decl'.name = decl.name) :
      SameFrame id (.assocType decl) (.assocType decl')
  | assocConst {decl decl' : AssocConstDecl} (name : decl'.name = decl.name) :
      SameFrame id (.assocConst decl) (.assocConst decl')
  | constant {decl decl' : ConstantDecl} (name : decl'.name = decl.name) :
      SameFrame id (.constant decl) (.constant decl')
  | static {decl decl' : StaticDecl} (name : decl'.name = decl.name) :
      SameFrame id (.static decl) (.static decl')
  | reexport {decl decl' : ReexportDecl} (name : decl'.name = decl.name)
      (target : decl'.target = decl.target) (glob : decl'.glob = decl.glob) :
      SameFrame id (.reexport decl) (.reexport decl')
  | inert {decl : InertDecl} : SameFrame id (.inert decl) (.inert decl)

theorem Declaration.SameFrame.refl (id : Int) (declaration : Declaration) :
    SameFrame id declaration declaration := by
  cases declaration with
  | module => exact .module (fun _ => rfl) rfl
  | _ => constructor <;> rfl

theorem Declaration.SameFrame.kind_eq {id : Int} {declaration declaration' : Declaration}
    (same : SameFrame id declaration declaration') : declaration'.kind = declaration.kind := by
  cases same <;> rfl

/-- Two trees, and the numbers that the entries of the first have in the second. -/
structure Pairing where
  scheme : Renumbering
  first : Tree
  second : Tree

namespace Pairing

/-- What a number leads to has the same frame in both trees, or it leads nowhere in both. -/
def Framed (pair : Pairing) (id : Int) : Prop :=
  Option.Rel (fun entry entry' =>
    (entry.declaration.renumber pair.scheme).SameFrame id entry'.declaration)
    (pair.first.entry? id) (pair.second.entry? (pair.scheme id))

/-- The declaration under a number is the same in both trees, its references renumbered. -/
def Unedited (pair : Pairing) (id : Int) : Prop :=
  pair.second.declaration? (pair.scheme id) =
    (pair.first.declaration? id).map (Declaration.renumber pair.scheme)

/-- All that the item of an entry is made from, deprecation apart, is the same in both trees. -/
structure Untouched (pair : Pairing) (id : Int) : Prop where
  itself : pair.Unedited id
  variants : ∀ decl, pair.first.declaration? id = some (.enum decl) →
    ∀ variant ∈ decl.variants, pair.Unedited variant

/-- An entry is deprecated in both trees or in neither. -/
def SameFlag (pair : Pairing) (id : Int) : Prop :=
  (pair.second.entry? (pair.scheme id)).map Entry.deprecated =
    (pair.first.entry? id).map Entry.deprecated

end Pairing

/-- Two items tell of one entry in both trees, as items of one class under one name and owner. -/
structure Counterparts (pair : Pairing) (source : Int) (item item' : Item) : Prop where
  name : item'.name = item.name
  owner : item'.owner = item.owner
  itemClass : item'.itemClass = item.itemClass
  form : pair.Untouched source → item'.form = item.form
  deprecated : pair.SameFlag source → item'.deprecated = item.deprecated

theorem Counterparts.eq {pair : Pairing} {source : Int} {item item' : Item}
    (same : Counterparts pair source item item') (untouched : pair.Untouched source)
    (flag : pair.SameFlag source) : item' = item :=
  (Item.mk.injEq ..).mpr ⟨same.name, same.deprecated flag, same.owner, same.form untouched⟩

/-- Two publications are made at the same point, under the same identity. -/
structure Publication.Matches (pair : Pairing) (publication publication' : Publication) : Prop where
  source : publication'.source = pair.scheme publication.source
  id : publication'.id = publication.id
  item : Counterparts pair publication.source publication.item publication'.item

/-- Two actions do the same. What is passed over may be told differently. -/
inductive Action.Matches (pair : Pairing) : Action → Action → Prop where
  | visit {id : Int} : Matches pair (.visit id) (.visit (pair.scheme id))
  | publish {publication publication' : Publication}
      (same : publication.Matches pair publication') :
      Matches pair (.publish publication) (.publish publication')
  | skip {skipped skipped' : Skipped} : Matches pair (.skip skipped) (.skip skipped')
  | refuse {problem : Problem} :
      Matches pair (.refuse problem) (.refuse (problem.renumber pair.scheme))

inductive Via.Matches (pair : Pairing) : Via → Via → Prop where
  | listed {referrer : Int} : Matches pair (.listed referrer) (.listed (pair.scheme referrer))
  | named {importer : Int} {name source source' : String} :
      Matches pair (.named importer name source) (.named (pair.scheme importer) name source')
  | spliced {source source' : String} : Matches pair (.spliced source) (.spliced source')
  | attached {type : Identity} {referrer : Int} :
      Matches pair (.attached type referrer) (.attached type (pair.scheme referrer))

/-- Two tasks ask for the same entry in the same way and under the same path. -/
structure Task.Matches (pair : Pairing) (task task' : Task) : Prop where
  id : task'.id = pair.scheme task.id
  path : task'.path = task.path
  via : task.via.Matches pair task'.via

structure Plan.Matches (pair : Pairing) (plan plan' : Plan) : Prop where
  actions : List.Forall₂ (Action.Matches pair) plan.actions plan'.actions
  next : List.Forall₂ (Task.Matches pair) plan.next plan'.next

/-! ## What is found under a number -/

/-- Two searches refuse with one problem, told in different numbers, or give values that agree. -/
inductive Pairing.Outcomes {α : Type} (pair : Pairing) (agree : α → α → Prop) :
    Except Problem α → Except Problem α → Prop where
  | ok {value value' : α} (agreed : agree value value') :
      Outcomes pair agree (.ok value) (.ok value')
  | error {problem : Problem} :
      Outcomes pair agree (.error problem) (.error (problem.renumber pair.scheme))

section Searches

variable {pair : Pairing} {id : Int}

theorem Pairing.Unedited.declaration_eq {entry entry' : Entry} (unedited : pair.Unedited id)
    (found : pair.first.entry? id = some entry)
    (found' : pair.second.entry? (pair.scheme id) = some entry') :
    entry'.declaration = entry.declaration.renumber pair.scheme := by
  rw [Pairing.Unedited, declared_of_found found, declared_of_found found'] at unedited
  exact Option.some.inj unedited

theorem Pairing.SameFlag.deprecated_eq {entry entry' : Entry} (same : pair.SameFlag id)
    (found : pair.first.entry? id = some entry)
    (found' : pair.second.entry? (pair.scheme id) = some entry') :
    entry'.deprecated = entry.deprecated := by
  rw [Pairing.SameFlag, found, found'] at same
  exact Option.some.inj same

theorem Pairing.Framed.found (framed : pair.Framed id) :
    (pair.first.entry? id = none ∧ pair.second.entry? (pair.scheme id) = none) ∨
      ∃ entry entry', pair.first.entry? id = some entry ∧
        pair.second.entry? (pair.scheme id) = some entry' ∧
        (entry.declaration.renumber pair.scheme).SameFrame id entry'.declaration := by
  unfold Framed at framed
  cases found : pair.first.entry? id <;> cases found' : pair.second.entry? (pair.scheme id) <;>
    rw [found, found'] at framed <;> cases framed
  · exact .inl ⟨rfl, rfl⟩
  · exact .inr ⟨_, _, rfl, rfl, ‹_›⟩

theorem field?_outcomes (framed : pair.Framed id) (referrer : Int) :
    pair.Outcomes (fun field field' =>
      pair.first.entry? id = some ⟨field.1, .structField field.2⟩ ∧
        pair.second.entry? (pair.scheme id) = some ⟨field'.1, .structField field'.2⟩ ∧
        field'.2.name = field.2.name)
      (pair.first.field? referrer id)
      (pair.second.field? (pair.scheme referrer) (pair.scheme id)) := by
  rcases framed.found with ⟨absent, absent'⟩ | ⟨entry, entry', found, found', same⟩
  · simp only [field?, absent, absent']
    exact .error
  · obtain ⟨deprecated, declaration⟩ := entry
    obtain ⟨deprecated', declaration'⟩ := entry'
    simp only [field?, found, found']
    cases declaration with
    | structField decl =>
      cases same with
      | structField name => exact .ok ⟨rfl, rfl, name⟩
    | _ =>
      cases same
      exact .error

theorem variant?_outcomes (framed : pair.Framed id) (referrer : Int) :
    pair.Outcomes (fun decl decl' => pair.first.declaration? id = some (.variant decl) ∧
        decl'.name = decl.name ∧ decl'.fields = decl.fields.map pair.scheme ∧
        (pair.Unedited id → decl'.fieldsStripped = decl.fieldsStripped))
      (pair.first.variant? referrer id)
      (pair.second.variant? (pair.scheme referrer) (pair.scheme id)) := by
  rcases framed.found with ⟨absent, absent'⟩ | ⟨entry, entry', found, found', same⟩
  · simp only [variant?, absent, absent']
    exact .error
  · obtain ⟨deprecated, declaration⟩ := entry
    obtain ⟨deprecated', declaration'⟩ := entry'
    simp only [variant?, found, found']
    cases declaration with
    | variant decl =>
      cases same with
      | variant name fields =>
        refine .ok ⟨declared_of_found found, name, fields, fun unedited => ?_⟩
        cases unedited.declaration_eq found found'
        rfl
    | _ =>
      cases same
      exact .error

/-- A declaration can be a member in both trees or in neither. -/
theorem memberItem?_counterparts {entry entry' : Entry} (parent : String) (owner : Option Identity)
    (found : pair.first.entry? id = some entry)
    (found' : pair.second.entry? (pair.scheme id) = some entry')
    (same : (entry.declaration.renumber pair.scheme).SameFrame id entry'.declaration) :
    Option.Rel (fun member member' => member'.1 = member.1 ∧
      Counterparts pair id member.2 member'.2)
      (memberItem? entry parent owner) (memberItem? entry' parent owner) := by
  obtain ⟨deprecated, declaration⟩ := entry
  obtain ⟨deprecated', declaration'⟩ := entry'
  have flags : pair.SameFlag id → deprecated' = deprecated := fun same =>
    same.deprecated_eq found found'
  have unedited : pair.Untouched id → declaration' = declaration.renumber pair.scheme :=
    fun untouched => untouched.itself.declaration_eq found found'
  cases declaration with
  | function | method | assocType | assocConst =>
    cases same
    rename_i name
    refine .some ⟨rfl, name, rfl, rfl, fun untouched => ?_, flags⟩
    cases unedited untouched
    rfl
  | _ =>
    cases same
    exact .none

theorem member?_outcomes (framed : pair.Framed id) (parent : String) (owner : Option Identity)
    (referrer : Int) :
    pair.Outcomes (fun member member' => member'.1 = member.1 ∧
        Counterparts pair id member.2 member'.2)
      (pair.first.member? parent owner referrer id)
      (pair.second.member? parent owner (pair.scheme referrer) (pair.scheme id)) := by
  rcases framed.found with ⟨absent, absent'⟩ | ⟨entry, entry', found, found', same⟩
  · simp only [member?, absent, absent']
    exact .error
  · have kind : entry'.declaration.kind = entry.declaration.kind :=
      same.kind_eq.trans (Declaration.kind_renumber _ _)
    have members := memberItem?_counterparts parent owner found found' same
    simp only [member?, found, found', kind]
    generalize memberItem? entry parent owner = member,
      memberItem? entry' parent owner = member' at members
    cases members with
    | none => exact .error
    | some agreed => exact .ok agreed

end Searches

/-! ## Parts -/

section Parts

variable {pair : Pairing} {id referrer : Int} {ids : List Int} {type : Identity}
  {path : List String}

theorem matches_flatMap {α : Type} {R : α → α → Prop} {make make' : Int → List α}
    (each : ∀ id ∈ ids, List.Forall₂ R (make id) (make' (pair.scheme id))) :
    List.Forall₂ R (ids.flatMap make) ((ids.map pair.scheme).flatMap make') := by
  induction ids with
  | nil => exact .nil
  | cons id rest ih =>
    rw [List.map_cons, List.flatMap_cons, List.flatMap_cons]
    exact List.rel_append (each id List.mem_cons_self)
      (ih fun other member => each other (List.mem_cons_of_mem _ member))

/-- What is read off the values that are found is the same if values that agree give the same. -/
theorem Pairing.Outcomes.map_eq {α β : Type} {agree : α → α → Prop}
    {outcome outcome' : Except Problem α} (outcomes : pair.Outcomes agree outcome outcome')
    {read read' : α → β} (same : ∀ value value', agree value value' → read' value' = read value) :
    outcome'.toOption.map read' = outcome.toOption.map read := by
  cases outcomes with
  | ok agreed => exact congrArg some (same _ _ agreed)
  | error => rfl

theorem fieldActions_matches (framed : pair.Framed id) :
    List.Forall₂ (Action.Matches pair) (pair.first.fieldActions type path referrer id)
      (pair.second.fieldActions type path (pair.scheme referrer) (pair.scheme id)) := by
  have outcomes := field?_outcomes framed referrer
  unfold fieldActions
  generalize pair.first.field? referrer id = field,
    pair.second.field? (pair.scheme referrer) (pair.scheme id) = field' at outcomes
  cases outcomes with
  | error => exact .cons .refuse .nil
  | @ok field field' agreed =>
    obtain ⟨deprecated, decl⟩ := field
    obtain ⟨deprecated', decl'⟩ := field'
    obtain ⟨found, found', name⟩ := agreed
    have name : decl'.name = decl.name := name
    have place : (⟨path ++ [decl'.name], .structField⟩ : Identity) =
        ⟨path ++ [decl.name], .structField⟩ := by rw [name]
    refine .cons .visit (.cons (.publish ⟨rfl, place, name, rfl, rfl, fun untouched => ?_,
      fun same => ?_⟩) .nil)
    · cases untouched.itself.declaration_eq found found'
      rfl
    · exact same.deprecated_eq found found'

theorem fieldNames_eq (framed : ∀ id ∈ ids, pair.Framed id) :
    pair.second.fieldNames (pair.scheme referrer) (ids.map pair.scheme) =
      pair.first.fieldNames referrer ids := by
  rw [fieldNames, List.filterMap_map]
  refine List.filterMap_congr fun id member => ?_
  exact (field?_outcomes (framed id member) referrer).map_eq fun _ _ agreed => agreed.2.2

theorem variantActions_matches (framed : pair.Framed id)
    (fields : ∀ decl, pair.first.declaration? id = some (.variant decl) →
      ∀ field ∈ decl.fields, pair.Framed field) :
    List.Forall₂ (Action.Matches pair) (pair.first.variantActions type referrer id)
      (pair.second.variantActions type (pair.scheme referrer) (pair.scheme id)) := by
  have outcomes := variant?_outcomes framed referrer
  unfold variantActions
  generalize pair.first.variant? referrer id = variant,
    pair.second.variant? (pair.scheme referrer) (pair.scheme id) = variant' at outcomes
  cases outcomes with
  | error => exact .cons .refuse .nil
  | @ok decl decl' agreed =>
    obtain ⟨declared, name, same, _⟩ := agreed
    simp only [name, same]
    exact .cons .visit (matches_flatMap fun field member =>
      fieldActions_matches (fields decl declared field member))

private theorem map_variants_eq {β : Type} {read : VariantDecl → β}
    (framed : ∀ id ∈ ids, pair.Framed id)
    (same : ∀ id ∈ ids, ∀ decl decl' : VariantDecl, decl'.name = decl.name →
      (pair.Unedited id → decl'.fieldsStripped = decl.fieldsStripped) → read decl' = read decl) :
    (pair.second.variants (pair.scheme referrer) (ids.map pair.scheme)).map (read ·.2) =
      (pair.first.variants referrer ids).map (read ·.2) := by
  rw [variants, variants, List.map_filterMap, List.map_filterMap, List.filterMap_map]
  refine List.filterMap_congr fun id member => ?_
  simp only [Option.map_map, Function.comp_def]
  exact (variant?_outcomes (framed id member) referrer).map_eq fun decl decl' agreed =>
    same id member decl decl' agreed.2.1 agreed.2.2.2

theorem variantNames_eq (framed : ∀ id ∈ ids, pair.Framed id) :
    (pair.second.variants (pair.scheme referrer) (ids.map pair.scheme)).map (·.2.name) =
      (pair.first.variants referrer ids).map (·.2.name) :=
  map_variants_eq framed fun _ _ _ _ name _ => name

/-- Variants that are the same in both trees hide fields in both or in neither. -/
theorem anyStripped_eq (framed : ∀ id ∈ ids, pair.Framed id)
    (unedited : ∀ id ∈ ids, pair.Unedited id) :
    (pair.second.variants (pair.scheme referrer) (ids.map pair.scheme)).any (·.2.fieldsStripped) =
      (pair.first.variants referrer ids).any (·.2.fieldsStripped) := by
  have flags : (pair.second.variants (pair.scheme referrer) (ids.map pair.scheme)).map
        (·.2.fieldsStripped) = (pair.first.variants referrer ids).map (·.2.fieldsStripped) :=
    map_variants_eq framed fun id member _ _ _ stripped => stripped (unedited id member)
  have any := congrArg (fun flags => flags.any fun flag => flag) flags
  simpa only [List.any_map, Function.comp_def] using any

theorem variantFieldNames_eq (framed : ∀ id ∈ ids, pair.Framed id)
    (fields : ∀ id ∈ ids, ∀ decl, pair.first.declaration? id = some (.variant decl) →
      ∀ field ∈ decl.fields, pair.Framed field) :
    pair.second.variantFieldNames (pair.scheme referrer) (ids.map pair.scheme) =
      pair.first.variantFieldNames referrer ids := by
  simp only [variantFieldNames, variants, List.filterMap_eq_flatMap_toList, List.flatMap_assoc,
    List.flatMap_map]
  refine List.flatMap_congr fun id member => ?_
  have outcomes := variant?_outcomes (framed id member) referrer
  generalize pair.first.variant? referrer id = variant,
    pair.second.variant? (pair.scheme referrer) (pair.scheme id) = variant' at outcomes
  cases outcomes with
  | error => rfl
  | @ok decl decl' agreed =>
    obtain ⟨declared, name, same, _⟩ := agreed
    have names : pair.second.fieldNames (pair.scheme id) decl'.fields =
        pair.first.fieldNames id decl.fields :=
      same ▸ fieldNames_eq (fields id member decl declared)
    simp [Except.toOption, name, names]

theorem memberActions_matches {parent : String} {owner : Option Identity} (framed : pair.Framed id) :
    List.Forall₂ (Action.Matches pair) (pair.first.memberActions path parent owner referrer id)
      (pair.second.memberActions path parent owner (pair.scheme referrer) (pair.scheme id)) := by
  have outcomes := member?_outcomes framed parent owner referrer
  unfold memberActions
  generalize pair.first.member? parent owner referrer id = member,
    pair.second.member? parent owner (pair.scheme referrer) (pair.scheme id) = member' at outcomes
  cases outcomes with
  | error => exact .cons .refuse .nil
  | @ok member member' agreed =>
    obtain ⟨kind, item⟩ := member
    obtain ⟨kind', item'⟩ := member'
    obtain ⟨rfl, same⟩ := agreed
    have name : item'.name = item.name := same.name
    have place : (⟨path ++ [item'.name], kind'⟩ : Identity) = ⟨path ++ [item.name], kind'⟩ := by
      rw [name]
    exact .cons .visit (.cons (.publish ⟨rfl, place, same⟩) .nil)

theorem memberNames_eq (framed : ∀ id ∈ ids, pair.Framed id) :
    pair.second.memberNames (pair.scheme referrer) (ids.map pair.scheme) =
      pair.first.memberNames referrer ids := by
  rw [memberNames, List.filterMap_map]
  refine List.filterMap_congr fun id member => ?_
  exact (member?_outcomes (framed id member) "" none referrer).map_eq fun _ _ agreed =>
    Prod.ext agreed.1 agreed.2.name

end Parts

end ApiDelta.Tree
