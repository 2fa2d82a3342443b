import ApiDelta.Proofs.ClassifiedDelta
import ApiDelta.Proofs.WalkExactness

/-!
Snapshots are well typed. Plans put together identities and items in many places, each on its own. Yet
the kind of an identity always tells the form of its item, and the last segment of its path its name.
So an identity that is in two snapshots has items of one class, and no comparison ever reports that the
class of an item has changed.
-/
namespace ApiDelta

/-! ## Kinds and forms -/

/-- The class of the items of a kind. -/
def IdKind.itemClass : IdKind → ItemClass
  | .struct | .union | .enum | .typedef => .type
  | .structField => .field
  | .function => .function
  | .method => .method
  | .trait => .traitDef
  | .impl => .traitImpl
  | .assocType => .assocType
  | .assocConst => .assocConst
  | .constant | .static => .constant

/-- The forms of the items of a kind. Only a structure has a shape, only a type definition has a type
that it stands for, and only a static can be mutable. -/
inductive IdKind.Admits : IdKind → Form → Prop where
  | struct {form : TypeForm} (kind : form.typeKind = .struct) (aliased : form.aliased = none) :
      Admits .struct (.type form)
  | union {form : TypeForm} (kind : form.typeKind = .union) (shape : form.structKind = none)
      (aliased : form.aliased = none) : Admits .union (.type form)
  | enum {form : TypeForm} (kind : form.typeKind = .enum) (shape : form.structKind = none)
      (aliased : form.aliased = none) : Admits .enum (.type form)
  | typedef {form : TypeForm} (kind : form.typeKind = .typedef) (shape : form.structKind = none) :
      Admits .typedef (.type form)
  | structField {type : String} : Admits .structField (.field type)
  | function {callable : Callable} : Admits .function (.function callable)
  | method {parent : String} {callable : Callable} {hasBody : Bool} :
      Admits .method (.method parent callable hasBody)
  | trait {form : TraitForm} : Admits .trait (.traitDef form)
  | impl {form : TraitImplForm} : Admits .impl (.traitImpl form)
  | assocType {generics bounds : List String} {default : Option String} :
      Admits .assocType (.assocType generics bounds default)
  | assocConst {type : String} {default : Option String} :
      Admits .assocConst (.assocConst type default)
  | constant {type : String} {value : Option String} :
      Admits .constant (.constant type value false false)
  | static {type : String} {value : Option String} {mutable : Bool} :
      Admits .static (.constant type value true mutable)

section Admits

variable {kind : IdKind} {form other : Form}

theorem IdKind.Admits.itemClass (admits : kind.Admits form) : form.itemClass = kind.itemClass := by
  cases admits <;> rfl

/-- Two forms of one kind have the same type kind and agree on being static, if they have them. -/
theorem IdKind.Admits.attribute_eq (admits : kind.Admits form) (also : kind.Admits other)
    {name : String} (fixed : name = "type_kind" ∨ name = "is_static") :
    form.attributes.lookup name = other.attributes.lookup name := by
  rcases fixed with rfl | rfl <;> cases admits <;> cases also <;> simp_all [Form.attributes] <;> rfl

end Admits

namespace Item

/-- The segment under which an item stands: its name, or for the implementation of a trait the trait in
brackets. -/
def segment (item : Item) : String :=
  match item.form with
  | .traitImpl form =>
    Identity.implMark ++ (if form.negative then "!" else "") ++ form.trait ++ "]"
  | _ => item.name

theorem attribute?_kind (item : Item) : item.attribute? "kind" = some (.text item.itemClass.label) :=
  rfl

/-- What is not shared by all items is an attribute of the form. -/
theorem attribute?_of_form {item : Item} {name : String}
    (own : name ≠ "kind" ∧ name ≠ "name" ∧ name ≠ "owner") :
    item.attribute? name = (item.form.attributes.lookup name).join := by
  simp [attribute?, attributes, List.lookup_cons, beq_false_of_ne own.1, beq_false_of_ne own.2.1,
    beq_false_of_ne own.2.2]

/-- An item stands under an identity that tells its form and its name. The implementation of a trait
has the name of the trait. -/
structure WellTyped (item : Item) (id : Identity) : Prop where
  form : id.kind.Admits item.form
  segment : id.name? = some item.segment
  trait : ∀ form, item.form = .traitImpl form → item.name = form.trait

namespace WellTyped

variable {item was now : Item} {id : Identity} {kind : IdKind} {path : List String}

theorem path_ne_nil (typed : item.WellTyped id) : id.path ≠ [] := by
  have named := typed.segment
  intro empty
  rw [Identity.name?, empty] at named
  cases named

theorem isShowable (typed : item.WellTyped id) : id.isShowable = true := by
  simp [Identity.isShowable, typed.path_ne_nil]

theorem itemClass (typed : item.WellTyped id) : item.itemClass = id.kind.itemClass :=
  typed.form.itemClass

/-- All but implementations stand under their names. -/
theorem of_admits (admits : kind.Admits item.form) (plain : kind ≠ .impl) :
    item.WellTyped ⟨path ++ [item.name], kind⟩ := by
  have noImpl : ∀ form, item.form ≠ .traitImpl form := by
    intro form same
    rw [same] at admits
    cases admits
    exact plain rfl
  refine ⟨admits, ?_, fun form same => absurd same (noImpl form)⟩
  have own : item.segment = item.name := by
    unfold Item.segment
    split
    · rename_i form same
      exact absurd same (noImpl form)
    · rfl
  rw [Identity.name?, own, List.getLast?_concat]

/-- Two items of one identity differ neither in class nor in what their kind fixes. -/
theorem unchanged (typed : was.WellTyped id) (typed' : now.WellTyped id) {name : String}
    (fixed : name = "kind" ∨ name = "type_kind" ∨ name = "is_static") :
    name ∉ was.differences now := by
  have sameClass : was.itemClass = now.itemClass := typed.itemClass.trans typed'.itemClass.symm
  rw [differences, if_pos sameClass, mem_changedAttributes, not_not]
  rcases fixed with rfl | fixed
  · rw [attribute?_kind, attribute?_kind, sameClass]
  · have own : name ≠ "kind" ∧ name ≠ "name" ∧ name ≠ "owner" := by
      rcases fixed with rfl | rfl <;> decide
    rw [attribute?_of_form own, attribute?_of_form own, typed.form.attribute_eq typed'.form fixed]

end WellTyped

end Item

/-! ## Plans -/

namespace Tree

/-- All that the actions publish satisfies a condition on items and their identities. -/
def Publishes (holds : Item → Identity → Prop) (actions : List Action) : Prop :=
  ∀ publication, .publish publication ∈ actions → holds publication.item publication.id

section Publishes

variable {holds : Item → Identity → Prop} {id : Int} {ids : List Int} {parts : List Action}
  {publication : Publication}

theorem Publishes.nil : Publishes holds [] :=
  fun _ none => absurd none List.not_mem_nil

theorem Publishes.flatMap {make : Int → List Action} (each : ∀ id, Publishes holds (make id)) :
    Publishes holds (ids.flatMap make) := by
  intro publication member
  obtain ⟨id, _, inside⟩ := List.mem_flatMap.mp member
  exact each id publication inside

/-- Parts without an owner to be published. -/
theorem Publishes.silent (inner : Publishes holds parts) : Publishes holds (.visit id :: parts) := by
  intro other member
  rcases List.mem_cons.mp member with visit | part
  · cases visit
  · exact inner other part

/-- Parts and, after them, their owner. -/
theorem Publishes.owner (inner : Publishes holds parts)
    (own : holds publication.item publication.id) :
    Publishes holds (.visit id :: parts ++ [.publish publication]) := by
  intro other member
  rcases List.mem_append.mp member with inside | last
  · exact inner.silent other inside
  · cases List.mem_singleton.mp last
    exact own

theorem Publishes.leaf (own : holds publication.item publication.id) :
    Publishes holds [.visit id, .publish publication] :=
  .owner .nil own

end Publishes

section Plans

variable {tree : Tree} {id referrer : Int} {type : Identity} {path : List String}

theorem wellTyped_fieldActions :
    Publishes Item.WellTyped (tree.fieldActions type path referrer id) := by
  unfold fieldActions
  split
  · simp [Publishes]
  · exact .leaf (.of_admits .structField (by decide))

theorem wellTyped_variantActions :
    Publishes Item.WellTyped (tree.variantActions type referrer id) := by
  unfold variantActions
  split
  · simp [Publishes]
  · exact .silent (.flatMap fun _ => wellTyped_fieldActions)

theorem admits_memberItem? {entry : Entry} {parent : String} {owner : Option Identity} {kind : IdKind}
    {item : Item} (made : memberItem? entry parent owner = some (kind, item)) :
    kind.Admits item.form ∧ kind ≠ .impl := by
  unfold memberItem? at made
  split at made <;> cases made
  · exact ⟨.method, by decide⟩
  · exact ⟨.method, by decide⟩
  · exact ⟨.assocType, by decide⟩
  · exact ⟨.assocConst, by decide⟩

theorem wellTyped_memberActions {parent : String} {owner : Option Identity} :
    Publishes Item.WellTyped (tree.memberActions path parent owner referrer id) := by
  unfold memberActions member?
  cases tree.entry? id with
  | none => simp [Publishes]
  | some entry =>
    dsimp only
    cases made : memberItem? entry parent owner with
    | none => simp [Publishes]
    | some member =>
      obtain ⟨admits, plain⟩ := admits_memberItem? made
      exact .leaf (.of_admits admits plain)

theorem wellTyped_traitImplItem {deprecated : Bool} {decl : ImplDecl} {trait : String} :
    (tree.traitImplItem id deprecated decl trait).WellTyped (implIdentity decl type trait) where
  form := .impl
  segment := List.getLast?_concat ..
  trait := fun _ same => by cases same; rfl

theorem wellTyped_implPlan {deprecated : Bool} {decl : ImplDecl} :
    Publishes Item.WellTyped (tree.implPlan id deprecated type decl).actions := by
  by_cases counts : decl.Counts
  · cases named : decl.trait with
    | none =>
      rw [implPlan_own counts named]
      exact .silent (.flatMap fun _ => wellTyped_memberActions)
    | some trait =>
      rw [implPlan_trait counts named]
      exact .owner (.flatMap fun _ => wellTyped_memberActions) wellTyped_traitImplItem
  · rw [implPlan_passed counts]
    simp [Publishes]

theorem wellTyped_publishPlan {kind : IdKind} {item : Item} (admits : kind.Admits item.form)
    (plain : kind ≠ .impl) : Publishes Item.WellTyped (publishPlan id path kind item).actions :=
  .leaf (.of_admits admits plain)

theorem wellTyped_itemPlan {entry : Entry} {givenName : Option String} :
    Publishes Item.WellTyped (tree.itemPlan id entry path givenName).actions := by
  obtain ⟨deprecated, declaration⟩ := entry
  cases declaration with
  | struct =>
    exact .owner (.flatMap fun _ => wellTyped_fieldActions)
      (.of_admits (.struct rfl rfl) (by decide))
  | union =>
    exact .owner (.flatMap fun _ => wellTyped_fieldActions)
      (.of_admits (.union rfl rfl rfl) (by decide))
  | enum =>
    exact .owner (.flatMap fun _ => wellTyped_variantActions)
      (.of_admits (.enum rfl rfl rfl) (by decide))
  | trait =>
    exact .owner (.flatMap fun _ => wellTyped_memberActions) (.of_admits .trait (by decide))
  | function => exact wellTyped_publishPlan .function (by decide)
  | method => exact wellTyped_publishPlan .method (by decide)
  | typedef => exact wellTyped_publishPlan (.typedef rfl rfl) (by decide)
  | constant => exact wellTyped_publishPlan .constant (by decide)
  | static => exact wellTyped_publishPlan .static (by decide)
  | module | inert | variant | structField | impl | assocType | assocConst =>
    simp [Publishes, itemPlan]
  | reexport decl =>
    simp only [itemPlan, reexportPlan]
    cases decl.target <;> simp [Publishes]

theorem wellTyped_plan {task : Task} (accepted : Accepted (tree.plan task).actions) :
    Publishes Item.WellTyped (tree.plan task).actions := by
  cases answer_of_accepted accepted with
  | idle _ _ mute =>
    intro publication member
    rw [← mem_publications, mute] at member
    cases member
  | item _ _ _ same =>
    rw [same]
    exact wellTyped_itemPlan
  | splice _ _ same =>
    rw [same]
    exact .silent .nil
  | block _ _ _ same =>
    rw [same]
    exact wellTyped_implPlan

end Plans

end Tree

/-! ## Snapshots -/

namespace Snapshot

theorem wellTyped_of_translated {tree : Tree} {s : Snapshot}
    (translated : Snapshot.ofTree? tree = .ok s) {id : Identity} {item : Item}
    (held : s.get? id = some item) : item.WellTyped id := by
  obtain ⟨answered, final, run, rfl⟩ := Tree.ofTree?_eq_ok_iff.mp translated
  obtain ⟨publication, emitted, same⟩ := run.mem_entries.mp (get?_eq_some_iff.mp held)
  obtain ⟨task, turn, published⟩ := List.mem_flatMap.mp emitted
  have typed := Tree.wellTyped_plan (run.accepted turn) publication (Tree.mem_publications.mp published)
  cases same
  exact typed

/-- **Snapshots are well typed.** In the snapshot of a tree every identity has a last segment and a form
for people, its kind tells the class and the form of its item, and its last segment the name. So no
comparison of two such snapshots reports that an item has changed its class, or another attribute that
its kind fixes. -/
theorem snapshots_are_well_typed (tree other : Tree) (s s' : Snapshot)
    (translated : Snapshot.ofTree? tree = .ok s) (translated' : Snapshot.ofTree? other = .ok s') :
    (∀ id item, s.get? id = some item →
      id.path ≠ [] ∧ id.isShowable = true ∧ item.itemClass = id.kind.itemClass ∧
        item.WellTyped id) ∧
    ∀ id was now breaking changed,
      .modified id was now breaking changed ∈ (Diagnosis.between s s').changes →
      "kind" ∉ changed ∧ "type_kind" ∉ changed ∧ "is_static" ∉ changed := by
  constructor
  · intro id item held
    have typed := wellTyped_of_translated translated held
    exact ⟨typed.path_ne_nil, typed.isShowable, typed.itemClass, typed⟩
  · intro id was now breaking changed member
    cases Diagnosis.mem_between.mp member with
    | modified before after =>
      have typed := wellTyped_of_translated translated before
      have typed' := wellTyped_of_translated translated' after
      exact ⟨typed.unchanged typed' (.inl rfl), typed.unchanged typed' (.inr (.inl rfl)),
        typed.unchanged typed' (.inr (.inr rfl))⟩

/-- A library with one static, which may be mutable. -/
def counterTree (mutable : Bool) : Tree where
  index := [
    (0, { declaration := .module { name := "lib", items := [1] } }),
    (1, { declaration := .static { name := "COUNTER", type := "u32", mutable := mutable } })]
  root := { name := "lib", items := [1] }
  rooted := rfl

def counterItem (mutable : Bool) : Item where
  name := "COUNTER"
  form := .constant "u32" none true mutable

/-- The static becomes mutable, and stays a static. -/
theorem snapshots_are_well_typed_counter :
    ∃ s s' breaking changed, Snapshot.ofTree? (counterTree false) = .ok s ∧
      Snapshot.ofTree? (counterTree true) = .ok s' ∧
      (counterItem false).WellTyped ⟨["COUNTER"], .static⟩ ∧
      .modified ⟨["COUNTER"], .static⟩ (counterItem false) (counterItem true) breaking changed ∈
        (Diagnosis.between s s').changes ∧ "kind" ∉ changed ∧ "is_static" ∉ changed := by
  have translates (mutable : Bool) : ∃ s, Snapshot.ofTree? (counterTree mutable) = .ok s ∧
      s.get? ⟨["COUNTER"], .static⟩ = some (counterItem mutable) :=
    ⟨_, Tree.ofTree?_eq_ok_iff.mpr ⟨_, _, .answer (by decide) rfl .done, rfl⟩, rfl⟩
  obtain ⟨s, translated, before⟩ := translates false
  obtain ⟨s', translated', after⟩ := translates true
  obtain ⟨typed, fixed⟩ := snapshots_are_well_typed _ _ s s' translated translated'
  have member := Diagnosis.mem_between.mpr
    (.modified before after fun agree => absurd agree.form (by decide))
  obtain ⟨sameClass, _, sameKind⟩ := fixed _ _ _ _ _ member
  exact ⟨s, s', _, _, translated, translated', (typed _ _ before).2.2.2, member, sameClass, sameKind⟩

end Snapshot

end ApiDelta
