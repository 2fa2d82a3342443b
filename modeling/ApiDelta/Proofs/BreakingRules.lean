import Mathlib.Data.Set.Insert
import ApiDelta.Proofs.ClassifiedDelta

/-!
Which modifications break callers. The rules look at the sorted list of changed attributes; here they
are told of the set of attributes in which two items differ, whatever their classes, and without the
rules. A modification spares callers in five ways and in no other. The comparison of snapshots applies
the rules by itself to the items of one identity, and comes to the same verdict.
-/
namespace ApiDelta

namespace Item

/-- The attributes in which two items differ. Deprecation is not one of them. -/
def differing (old new : Item) : Set String :=
  {name | old.attribute? name ≠ new.attribute? name}

/-- The modifications that spare callers: nothing differs; a method has gained a body and nothing else;
a type has stopped hiding fields and nothing else; at most the value of a constant differs; or, of the
implementation of a trait, at most the methods that it overrides. -/
inductive Spares (old new : Item) : Prop where
  | same (sameClass : old.itemClass = new.itemClass) (nothing : differing old new = ∅)
  | bodyGained {parent : String} {callable : Callable} (before : old.itemClass = .method)
      (after : new.form = .method parent callable true) (only : differing old new = {"has_body"})
  | fieldsExposed {form : TypeForm} (before : old.itemClass = .type) (after : new.form = .type form)
      (exposed : form.fieldsStripped = false) (only : differing old new = {"fields_stripped"})
  | otherValue (before : old.itemClass = .constant) (after : new.itemClass = .constant)
      (atMost : differing old new ⊆ {"value"})
  | otherOverrides (before : old.itemClass = .traitImpl) (after : new.itemClass = .traitImpl)
      (atMost : differing old new ⊆ {"methods"})

/-! ## Lists and sets of attributes -/

section Differing

variable {old new : Item} {name : String}

theorem mem_differing : name ∈ differing old new ↔ name ∈ changedAttributes old new :=
  mem_changedAttributes.symm

theorem differing_eq_empty_iff : differing old new = ∅ ↔ changedAttributes old new = [] := by
  rw [Set.eq_empty_iff_forall_notMem, List.eq_nil_iff_forall_not_mem]
  exact forall_congr' fun _ => not_congr mem_differing

/-- A list that names each attribute once is a single name exactly if the set is. -/
theorem differing_eq_singleton_iff :
    differing old new = {name} ↔ changedAttributes old new = [name] := by
  constructor
  · intro only
    refine (changedAttributes_increasing old new).eq_of_mem_iff (List.pairwise_singleton _ _) ?_
    intro other
    rw [← mem_differing, only, Set.mem_singleton_iff, List.mem_singleton]
  · intro listed
    ext other
    rw [mem_differing, listed, Set.mem_singleton_iff, List.mem_singleton]

theorem differing_subset_singleton_iff :
    differing old new ⊆ {name} ↔ (changedAttributes old new).any (· ≠ name) = false := by
  simp [Set.subset_def, mem_differing]

end Differing

/-! ## The rules -/

theorem Spares.sameClass {old new : Item} (spares : Spares old new) :
    old.itemClass = new.itemClass := by
  cases spares with
  | same sameClass => exact sameClass
  | bodyGained before after => rw [before, itemClass, after, Form.itemClass]
  | fieldsExposed before after => rw [before, itemClass, after, Form.itemClass]
  | otherValue before after => rw [before, after]
  | otherOverrides before after => rw [before, after]

theorem breaks_of_constant {new : Item} (isConstant : new.itemClass = .constant)
    (changed : List String) : breaks new changed = changed.any (· ≠ "value") := by
  rw [itemClass] at isConstant
  cases form : new.form <;> rw [form] at isConstant <;> cases isConstant
  rw [breaks, form]

theorem breaks_of_traitImpl {new : Item} (isTraitImpl : new.itemClass = .traitImpl)
    (changed : List String) : breaks new changed = changed.any (· ≠ "methods") := by
  rw [itemClass] at isTraitImpl
  cases form : new.form <;> rw [form] at isTraitImpl <;> cases isTraitImpl
  rw [breaks, form]

/-- A modification that the rules pass spares callers, by the rule of its class. -/
theorem spares_of_breaks {old new : Item} (sameClass : old.itemClass = new.itemClass)
    (passed : breaks new (changedAttributes old new) = false) : Spares old new := by
  cases form : new.form with
  | method parent callable hasBody =>
    simp only [breaks, form] at passed
    split_ifs at passed with only
    have gained : hasBody = true := by simpa using passed
    refine .bodyGained ?_ (gained ▸ form) (differing_eq_singleton_iff.mpr only)
    rw [sameClass, itemClass, form, Form.itemClass]
  | type shape =>
    simp only [breaks, form] at passed
    split_ifs at passed with only
    refine .fieldsExposed ?_ form passed (differing_eq_singleton_iff.mpr only)
    rw [sameClass, itemClass, form, Form.itemClass]
  | constant =>
    have after : new.itemClass = .constant := by rw [itemClass, form, Form.itemClass]
    rw [breaks_of_constant after] at passed
    exact .otherValue (sameClass.trans after) after (differing_subset_singleton_iff.mpr passed)
  | traitImpl =>
    have after : new.itemClass = .traitImpl := by rw [itemClass, form, Form.itemClass]
    rw [breaks_of_traitImpl after] at passed
    exact .otherOverrides (sameClass.trans after) after (differing_subset_singleton_iff.mpr passed)
  | _ => simp [breaks, form] at passed

/-- A modification that spares callers and changes something passes the rules. -/
theorem Spares.breaks_eq_false {old new : Item} (spares : Spares old new)
    (changed : changedAttributes old new ≠ []) :
    breaks new (changedAttributes old new) = false := by
  cases spares with
  | same _ nothing => exact absurd (differing_eq_empty_iff.mp nothing) changed
  | bodyGained _ after only => simp [breaks, after, differing_eq_singleton_iff.mp only]
  | fieldsExposed _ after exposed only =>
    simp [breaks, after, differing_eq_singleton_iff.mp only, exposed]
  | otherValue _ after atMost =>
    rw [breaks_of_constant after]
    exact differing_subset_singleton_iff.mp atMost
  | otherOverrides _ after atMost =>
    rw [breaks_of_traitImpl after]
    exact differing_subset_singleton_iff.mp atMost

theorem isBreakingModification_eq_false_iff {old new : Item} :
    isBreakingModification old new = false ↔ Spares old new := by
  by_cases sameClass : old.itemClass = new.itemClass
  · rw [isBreakingModification, if_neg (not_not.mpr sameClass)]
    show (if (changedAttributes old new).isEmpty then false
      else breaks new (changedAttributes old new)) = false ↔ Spares old new
    by_cases unchanged : changedAttributes old new = []
    · rw [unchanged]
      exact iff_of_true rfl (.same sameClass (differing_eq_empty_iff.mpr unchanged))
    · rw [List.isEmpty_eq_false_iff.mpr unchanged, if_neg Bool.false_ne_true]
      exact ⟨spares_of_breaks sameClass, fun spares => spares.breaks_eq_false unchanged⟩
  · rw [isBreakingModification, if_pos sameClass]
    exact iff_of_false Bool.false_ne_true.symm fun spares => sameClass spares.sameClass

theorem Agrees.spares {old new : Item} (agree : Agrees old new) : Spares old new :=
  .same agree.itemClass
    (differing_eq_empty_iff.mpr ((changedAttributes_eq_nil_iff agree.itemClass).mpr agree))

end Item

namespace Diagnosis

variable {old new : Snapshot} {id : Identity} {was now : Item}

/-- The only modification that a diagnosis can hold for an identity is the one of its two items, with
the verdict of the rules on them. -/
theorem modified_between {before after : Item} {breaking : Bool} {fields : List String}
    (held : old.get? id = some was) (kept : new.get? id = some now)
    (member : .modified id before after breaking fields ∈ (between old new).changes) :
    before = was ∧ after = now ∧ breaking = was.isBreakingModification now := by
  cases mem_between.mp member with
  | modified heldThere keptThere =>
    obtain rfl := Option.some.inj (heldThere.symm.trans held)
    obtain rfl := Option.some.inj (keptThere.symm.trans kept)
    exact ⟨rfl, rfl, rfl⟩

/-- Two items under one identity of which a diagnosis tells no modification agree. -/
theorem agrees_of_unmodified (held : old.get? id = some was) (kept : new.get? id = some now)
    (unmodified : ∀ change ∈ (between old new).changes, change.id = id → change.kind ≠ .modified) :
    was.Agrees now := by
  by_contra differ
  exact unmodified _ (mem_between.mpr (.modified held kept differ)) rfl rfl

/-- **The breaking rules are exact, and a comparison applies them.** A modification does not break
callers exactly if it spares them in one of the five ways. In the diagnosis of two snapshots, a
modification of an identity carries the verdict of the rules on the items that the snapshots hold
there, and where there is no modification, that verdict is that nothing breaks. -/
theorem breaking_rules_are_exact :
    (∀ was now : Item, was.isBreakingModification now = false ↔ was.Spares now) ∧
      ∀ (old new : Snapshot) (id : Identity) (was now : Item), old.get? id = some was →
        new.get? id = some now →
        (∀ before after breaking fields,
          .modified id before after breaking fields ∈ (between old new).changes →
            before = was ∧ after = now ∧ breaking = was.isBreakingModification now) ∧
        ((∀ change ∈ (between old new).changes, change.id = id → change.kind ≠ .modified) →
          was.isBreakingModification now = false) := by
  refine ⟨fun _ _ => Item.isBreakingModification_eq_false_iff, fun old new id was now held kept => ?_⟩
  constructor
  · exact fun _ _ _ _ member => modified_between held kept member
  · intro unmodified
    have agree := agrees_of_unmodified held kept unmodified
    exact Item.isBreakingModification_eq_false_iff.mpr agree.spares

/-- A constant that has another value than before is modified, and breaks nobody. -/
theorem breaking_rules_are_exact_new_value :
    let id : Identity := ⟨["limit"], .constant⟩
    let was : Item := { name := "limit", form := .constant "u8" (some "1") false false }
    let now : Item := { name := "limit", form := .constant "u8" (some "2") false false }
    ∃ breaking fields, .modified id was now breaking fields ∈
        (between ⟨[(id, was)], by decide⟩ ⟨[(id, now)], by decide⟩).changes ∧
      breaking = false := by
  intro id was now
  have classified : Classified ⟨[(id, was)], by decide⟩ ⟨[(id, now)], by decide⟩
      (.modified id was now (was.isBreakingModification now) (was.differences now)) :=
    .modified rfl rfl fun agree => absurd agree.form (by decide)
  have member := mem_between.mpr classified
  obtain ⟨exact, applied⟩ := breaking_rules_are_exact
  have spares : was.Spares now := by
    refine .otherValue rfl rfl fun name differ => ?_
    by_contra other
    have elsewhere : (name == "value") = false := beq_false_of_ne other
    refine differ ?_
    simp only [Item.attribute?, Item.attributes, Item.itemClass, Form.itemClass, Form.attributes,
      List.lookup_cons, elsewhere, was, now]
  obtain ⟨_, _, verdict⟩ := (applied _ _ id was now rfl rfl).1 _ _ _ _ member
  exact ⟨_, _, member, verdict.trans ((exact was now).mpr spares)⟩

end Diagnosis

end ApiDelta
