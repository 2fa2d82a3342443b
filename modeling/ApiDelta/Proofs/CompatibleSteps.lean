import ApiDelta.Proofs.BreakingRules
import ApiDelta.Proofs.ReversedDelta

/-!
Compatible steps one after the other. To spare callers is a preorder on items: each class has at most
one attribute that may differ, and where that is a flag, the flag moves in one direction only. So two
releases that break nobody make one step that breaks nobody, for all that is there in between. What is
not there in between and breaks callers nevertheless is a member: it can go with its owner's list and
come back as something else, and neither release alone tells of it.
-/
namespace ApiDelta

/-- The attribute of a class that may differ without breaking callers. Most classes have none. -/
def ItemClass.spared : ItemClass → Set String
  | .method => {"has_body"}
  | .type => {"fields_stripped"}
  | .constant => {"value"}
  | .traitImpl => {"methods"}
  | _ => ∅

theorem ItemClass.owner_notMem_spared (itemClass : ItemClass) : "owner" ∉ itemClass.spared := by
  cases itemClass <;> simp [spared]

namespace Item

variable {a b c : Item} {name : String}

theorem attribute?_eq_of_notMem (kept : name ∉ differing a b) : a.attribute? name = b.attribute? name :=
  not_not.mp kept

/-- What differs over two steps differs in one of them. -/
theorem differing_subset_union (a b c : Item) : differing a c ⊆ differing a b ∪ differing b c := by
  intro name differ
  by_contra kept
  rw [Set.mem_union, not_or] at kept
  exact differ ((attribute?_eq_of_notMem kept.1).trans (attribute?_eq_of_notMem kept.2))

theorem attribute?_hasBody {parent : String} {callable : Callable} {hasBody : Bool}
    (form : a.form = .method parent callable hasBody) :
    a.attribute? "has_body" = some (.flag hasBody) := by
  simp [attribute?, attributes, form, Form.attributes, Callable.attributes, List.lookup_cons]

theorem attribute?_fieldsStripped {form : TypeForm} (isType : a.form = .type form) :
    a.attribute? "fields_stripped" = some (.flag form.fieldsStripped) := by
  simp [attribute?, attributes, isType, Form.attributes, List.lookup_cons]

theorem attribute?_owner (a : Item) : a.attribute? "owner" = a.owner.map .identity := by
  simp [attribute?, attributes, List.lookup_cons]

/-- A step of an item that only goes forward: the class stays, at most its spared attribute differs,
a body that is there stays there, and fields in sight stay in sight. -/
structure Forward (a b : Item) : Prop where
  sameClass : a.itemClass = b.itemClass
  atMost : differing a b ⊆ a.itemClass.spared
  bodyKept : a.attribute? "has_body" = some (.flag true) → b.attribute? "has_body" = some (.flag true)
  sightKept : a.attribute? "fields_stripped" = some (.flag false) →
    b.attribute? "fields_stripped" = some (.flag false)

theorem Forward.trans (first : Forward a b) (second : Forward b c) : Forward a c where
  sameClass := first.sameClass.trans second.sameClass
  atMost := by
    refine (differing_subset_union a b c).trans (Set.union_subset first.atMost ?_)
    rw [first.sameClass]
    exact second.atMost
  bodyKept there := second.bodyKept (first.bodyKept there)
  sightKept inSight := second.sightKept (first.sightKept inSight)

theorem Forward.owner_eq (forward : Forward a b) : a.owner = b.owner := by
  have kept : "owner" ∉ differing a b := fun differ =>
    a.itemClass.owner_notMem_spared (forward.atMost differ)
  have same := attribute?_eq_of_notMem kept
  rwa [attribute?_owner, attribute?_owner, AttributeValue.map_identity_inj] at same

/-- Where neither flag differs, only the class and the spared attribute are left to check. -/
private theorem forward_of_atMost (sameClass : a.itemClass = b.itemClass)
    (atMost : differing a b ⊆ a.itemClass.spared) (body : "has_body" ∉ differing a b)
    (sight : "fields_stripped" ∉ differing a b) : Forward a b :=
  ⟨sameClass, atMost, fun there => (attribute?_eq_of_notMem body).symm.trans there,
    fun inSight => (attribute?_eq_of_notMem sight).symm.trans inSight⟩

theorem Spares.forward (spares : Spares a b) : Forward a b := by
  have sameClass := spares.sameClass
  cases spares with
  | same _ nothing =>
    exact forward_of_atMost sameClass (by simp [nothing]) (by simp [nothing]) (by simp [nothing])
  | bodyGained before after only =>
    have sight : "fields_stripped" ∉ differing a b := by simp [only]
    exact ⟨sameClass, by rw [only, before]; exact subset_rfl, fun _ => attribute?_hasBody after,
      fun inSight => (attribute?_eq_of_notMem sight).symm.trans inSight⟩
  | fieldsExposed before after exposed only =>
    have body : "has_body" ∉ differing a b := by simp [only]
    exact ⟨sameClass, by rw [only, before]; exact subset_rfl,
      fun there => (attribute?_eq_of_notMem body).symm.trans there,
      fun _ => exposed ▸ attribute?_fieldsStripped after⟩
  | otherValue before _ atMost =>
    have body : "has_body" ∉ differing a b := fun differ => absurd (atMost differ) (by simp)
    have sight : "fields_stripped" ∉ differing a b := fun differ => absurd (atMost differ) (by simp)
    exact forward_of_atMost sameClass (by rwa [before]) body sight
  | otherOverrides before _ atMost =>
    have body : "has_body" ∉ differing a b := fun differ => absurd (atMost differ) (by simp)
    have sight : "fields_stripped" ∉ differing a b := fun differ => absurd (atMost differ) (by simp)
    exact forward_of_atMost sameClass (by rwa [before]) body sight

theorem exists_form_of_method (isMethod : a.itemClass = .method) :
    ∃ parent callable hasBody, a.form = .method parent callable hasBody := by
  rw [itemClass] at isMethod
  cases form : a.form <;> rw [form] at isMethod <;> cases isMethod
  exact ⟨_, _, _, rfl⟩

theorem exists_form_of_type (isType : a.itemClass = .type) : ∃ form, a.form = .type form := by
  rw [itemClass] at isType
  cases form : a.form <;> rw [form] at isType <;> cases isType
  exact ⟨_, rfl⟩

/-- A method that differs in having a body, and has not lost one, has gained it. -/
private theorem hasBody_of_differ {parent parent' : String} {callable callable' : Callable}
    {hadBody hasBody : Bool} (before : a.form = .method parent callable hadBody)
    (after : b.form = .method parent' callable' hasBody) (differ : "has_body" ∈ differing a b)
    (bodyKept : a.attribute? "has_body" = some (.flag true) →
      b.attribute? "has_body" = some (.flag true)) : hasBody = true := by
  change a.attribute? "has_body" ≠ b.attribute? "has_body" at differ
  rw [attribute?_hasBody before, attribute?_hasBody after] at differ bodyKept
  cases hadBody with
  | true => simpa using bodyKept rfl
  | false => simpa using differ

/-- A type that differs in hiding fields, and has not begun to, has ceased to. -/
private theorem fieldsStripped_of_differ {form form' : TypeForm} (before : a.form = .type form)
    (after : b.form = .type form') (differ : "fields_stripped" ∈ differing a b)
    (sightKept : a.attribute? "fields_stripped" = some (.flag false) →
      b.attribute? "fields_stripped" = some (.flag false)) : form'.fieldsStripped = false := by
  change a.attribute? "fields_stripped" ≠ b.attribute? "fields_stripped" at differ
  rw [attribute?_fieldsStripped before, attribute?_fieldsStripped after] at differ sightKept
  cases hidden : form.fieldsStripped with
  | true => simpa [hidden] using differ
  | false => simpa using sightKept (by rw [hidden])

theorem Forward.spares (forward : Forward a b) : Spares a b := by
  obtain ⟨sameClass, atMost, bodyKept, sightKept⟩ := forward
  cases isClass : a.itemClass with
  | method =>
    rw [isClass] at atMost
    rcases Set.subset_singleton_iff_eq.mp atMost with nothing | only
    · exact .same sameClass nothing
    · obtain ⟨_, _, hadBody, before⟩ := exists_form_of_method isClass
      obtain ⟨_, _, hasBody, after⟩ := exists_form_of_method (sameClass.symm.trans isClass)
      have differ : "has_body" ∈ differing a b := only ▸ Set.mem_singleton _
      have gained := hasBody_of_differ before after differ bodyKept
      exact .bodyGained isClass (gained ▸ after) only
  | type =>
    rw [isClass] at atMost
    rcases Set.subset_singleton_iff_eq.mp atMost with nothing | only
    · exact .same sameClass nothing
    · obtain ⟨_, before⟩ := exists_form_of_type isClass
      obtain ⟨_, after⟩ := exists_form_of_type (sameClass.symm.trans isClass)
      have differ : "fields_stripped" ∈ differing a b := only ▸ Set.mem_singleton _
      exact .fieldsExposed isClass after (fieldsStripped_of_differ before after differ sightKept) only
  | constant =>
    rw [isClass] at atMost
    exact .otherValue isClass (sameClass.symm.trans isClass) atMost
  | traitImpl =>
    rw [isClass] at atMost
    exact .otherOverrides isClass (sameClass.symm.trans isClass) atMost
  | _ =>
    rw [isClass] at atMost
    exact .same sameClass (Set.subset_empty_iff.mp atMost)

theorem Spares.refl (a : Item) : Spares a a :=
  Agrees.spares ⟨rfl, rfl, rfl⟩

theorem Spares.trans (first : Spares a b) (second : Spares b c) : Spares a c :=
  (first.forward.trans second.forward).spares

theorem Spares.owner_eq (spares : Spares a b) : a.owner = b.owner :=
  spares.forward.owner_eq

/-- Two implementations of a trait that override different methods differ in nothing else. -/
theorem differing_subset_methods {form : TraitImplForm} {methods : List String}
    (before : a.form = .traitImpl form)
    (after : b = { a with form := .traitImpl { form with methods } }) :
    differing a b ⊆ {"methods"} := by
  intro name differ
  by_contra other
  have elsewhere : (name == "methods") = false := beq_false_of_ne other
  refine differ ?_
  simp only [attribute?, attributes, itemClass, Form.itemClass, Form.attributes, List.lookup_cons,
    elsewhere, before, after]

end Item

namespace Diagnosis

variable {a b c : Snapshot}

/-- A step breaks nobody exactly if all that is free to go stays, and all that stays spares callers. -/
theorem isBreaking_eq_false_iff :
    (between a b).isBreaking = false ↔
      (∀ id was, a.get? id = some was → was.owner = none → ∃ now, b.get? id = some now) ∧
        ∀ id was now, a.get? id = some was → b.get? id = some now → was.Spares now := by
  rw [isBreaking, List.any_eq_false]
  constructor
  · intro unbroken
    constructor
    · intro id was held free
      refine Option.ne_none_iff_exists'.mp fun gone => ?_
      exact unbroken _ (removed_iff.mpr ⟨held, gone, free⟩) rfl
    · intro id was now held kept
      by_cases agree : was.Agrees now
      · exact agree.spares
      · have passed := unbroken _ (mem_between.mpr (.modified held kept agree))
        exact Item.isBreakingModification_eq_false_iff.mp (Bool.eq_false_of_not_eq_true passed)
  · rintro ⟨stays, spares⟩ change member
    cases mem_between.mp member with
    | removed held gone free =>
      obtain ⟨now, kept⟩ := stays _ _ held free
      exact absurd (gone.symm.trans kept) (by simp)
    | modified held kept =>
      have passed := Item.isBreakingModification_eq_false_iff.mpr (spares _ _ _ held kept)
      simpa [Change.breaking] using passed
    | added | deprecated => exact Bool.false_ne_true

/-- What breaks callers over two compatible steps: a member that is not there in between, and is
there in the end as an item that does not spare those who called it in the beginning. -/
inductive BreaksUnseen (a b c : Snapshot) : Change → Prop where
  | member {id : Identity} {was now : Item} (before : a.get? id = some was)
      (between : b.get? id = none) (after : c.get? id = some now) (owned : was.owner ≠ none)
      (hurts : ¬ was.Spares now) : BreaksUnseen a b c (.modified id was now true (was.differences now))

/-- All that is free to go and is there at first is there all along, if both steps break nobody. -/
theorem stays_of_unbroken (first : (between a b).isBreaking = false)
    (second : (between b c).isBreaking = false) {id : Identity} {was : Item}
    (held : a.get? id = some was) (free : was.owner = none) : ∃ now, c.get? id = some now := by
  obtain ⟨stays, spares⟩ := isBreaking_eq_false_iff.mp first
  obtain ⟨next, kept⟩ := stays id was held free
  have still : next.owner = none := (spares id was next held kept).owner_eq ▸ free
  exact (isBreaking_eq_false_iff.mp second).1 id next kept still

/-- A modification of what is there all along spares callers, if both steps break nobody. -/
theorem spares_of_unbroken (first : (between a b).isBreaking = false)
    (second : (between b c).isBreaking = false) {id : Identity} {was next now : Item}
    (held : a.get? id = some was) (kept : b.get? id = some next) (there : c.get? id = some now) :
    was.Spares now :=
  ((isBreaking_eq_false_iff.mp first).2 id was next held kept).trans
    ((isBreaking_eq_false_iff.mp second).2 id next now kept there)

/-- Nothing is removed over two compatible steps. -/
theorem not_removed_of_unbroken (first : (between a b).isBreaking = false)
    (second : (between b c).isBreaking = false) (id : Identity) (item : Item) :
    .removed id item ∉ (between a c).changes := by
  intro member
  obtain ⟨held, gone, free⟩ := removed_iff.mp member
  obtain ⟨now, kept⟩ := stays_of_unbroken first second held free
  exact absurd (gone.symm.trans kept) (by simp)

theorem breaksUnseen_of_mem (first : (between a b).isBreaking = false)
    (second : (between b c).isBreaking = false) {change : Change}
    (member : change ∈ (between a c).changes) (breaks : change.breaking = true) :
    BreaksUnseen a b c change := by
  cases mem_between.mp member with
  | removed => exact absurd member (not_removed_of_unbroken first second _ _)
  | added | deprecated => cases breaks
  | @modified id was now held there differ =>
    have verdict : was.isBreakingModification now = true := breaks
    have hurts : ¬ was.Spares now := fun spares =>
      absurd (Item.isBreakingModification_eq_false_iff.mpr spares) (by simp [verdict])
    have away : b.get? id = none := by
      by_contra inBetween
      obtain ⟨next, kept⟩ := Option.ne_none_iff_exists'.mp inBetween
      exact hurts (spares_of_unbroken first second held kept there)
    have owned : was.owner ≠ none := by
      intro free
      obtain ⟨next, kept⟩ := (isBreaking_eq_false_iff.mp first).1 id was held free
      exact absurd (away.symm.trans kept) (by simp)
    rw [verdict]
    exact .member held away there owned hurts

theorem BreaksUnseen.mem {change : Change} (unseen : BreaksUnseen a b c change) :
    change ∈ (between a c).changes ∧ change.breaking = true := by
  cases unseen with
  | member before _ after _ hurts =>
    have differ := mt Item.Agrees.spares hurts
    have verdict := Bool.eq_true_of_not_eq_false
      (mt Item.isBreakingModification_eq_false_iff.mp hurts)
    exact ⟨verdict ▸ mem_between.mpr (.modified before after differ), rfl⟩

/-- **Compatible steps compose, but for members that are away in between.** If neither of two steps
breaks callers, then what breaks callers over both is a modification of a member that the snapshot in
between does not hold, and every such member that does not spare callers is reported. So nothing is
removed over both steps, and no modification of what is there in between breaks callers. -/
theorem compatible_steps_compose (a b c : Snapshot) (first : (between a b).isBreaking = false)
    (second : (between b c).isBreaking = false) :
    (∀ change, change ∈ (between a c).changes ∧ change.breaking = true ↔ BreaksUnseen a b c change) ∧
      (∀ id item, .removed id item ∉ (between a c).changes) ∧
      ∀ id was now breaking fields, .modified id was now breaking fields ∈ (between a c).changes →
        b.get? id ≠ none → breaking = false := by
  refine ⟨fun change => ⟨?_, BreaksUnseen.mem⟩, not_removed_of_unbroken first second, ?_⟩
  · exact fun ⟨member, breaks⟩ => breaksUnseen_of_mem first second member breaks
  · intro id was now breaking fields member inBetween
    obtain ⟨next, kept⟩ := Option.ne_none_iff_exists'.mp inBetween
    obtain ⟨held, there, _, verdict, _⟩ := modified_iff.mp member
    rw [verdict]
    exact Item.isBreakingModification_eq_false_iff.mpr
      (spares_of_unbroken first second held kept there)

/-- An implementation overrides a method, then leaves it to the trait, then overrides it again with
another result. Neither step breaks callers, and both together do. -/
theorem compatible_steps_compose_override :
    let impl : Identity := ⟨["Show for T"], .impl⟩
    let method : Identity := ⟨["Show for T", "show"], .method⟩
    let overriding (methods : List String) : Item :=
      { name := "Show", form := .traitImpl { trait := "Show", forType := "T", methods } }
    let showing (output : String) : Item :=
      { name := "show", owner := some impl, form := .method "T" ⟨[], some output, [], {}⟩ true }
    let a : Snapshot := ⟨[(impl, overriding ["show"]), (method, showing "u8")], by decide⟩
    let b : Snapshot := ⟨[(impl, overriding [])], by decide⟩
    let c : Snapshot := ⟨[(impl, overriding ["show"]), (method, showing "u16")], by decide⟩
    (between a b).isBreaking = false ∧ (between b c).isBreaking = false ∧
      ∃ fields, .modified method (showing "u8") (showing "u16") true fields ∈
        (between a c).changes := by
  intro impl method overriding showing a b c
  have overrides (methods methods' : List String) :
      (overriding methods).Spares (overriding methods') :=
    .otherOverrides rfl rfl (Item.differing_subset_methods rfl rfl)
  have first : (between a b).isBreaking = false := by
    refine isBreaking_eq_false_iff.mpr ⟨fun id was held free => ?_, fun id was now held kept => ?_⟩
    · rcases List.mem_pair.mp (Snapshot.get?_eq_some_iff.mp held) with same | same <;> cases same
      · exact ⟨_, rfl⟩
      · cases free
    · cases List.mem_singleton.mp (Snapshot.get?_eq_some_iff.mp kept)
      cases held
      exact overrides ["show"] []
  have second : (between b c).isBreaking = false := by
    refine isBreaking_eq_false_iff.mpr ⟨fun id was held _ => ?_, fun id was now held kept => ?_⟩
    · cases List.mem_singleton.mp (Snapshot.get?_eq_some_iff.mp held)
      exact ⟨_, rfl⟩
    · cases List.mem_singleton.mp (Snapshot.get?_eq_some_iff.mp held)
      cases kept
      exact overrides [] ["show"]
  have hurts : ¬ (showing "u8").Spares (showing "u16") := by
    intro spares
    have differ : "output" ∈ Item.differing (showing "u8") (showing "u16") := by
      change (showing "u8").attribute? "output" ≠ (showing "u16").attribute? "output"
      decide
    have spared : "output" ∈ ItemClass.spared .method := spares.forward.atMost differ
    simp [ItemClass.spared] at spared
  obtain ⟨unseen, _⟩ := compatible_steps_compose a b c first second
  exact ⟨first, second, _, ((unseen _).mpr (.member rfl rfl rfl (Option.some_ne_none _) hurts)).1⟩

end Diagnosis

end ApiDelta
