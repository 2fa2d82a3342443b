import Mathlib.Data.List.Sort
import Mathlib.Data.String.Basic
import ApiDelta.Item.Basic

/-!
Comparing items attribute by attribute loses nothing. Two items agree if they differ at most in
deprecation; `changedAttributes_eq_nil_iff` says that items of one class agree exactly if no attribute
has changed, so a comparison by named values is as fine as the items themselves.
-/
namespace ApiDelta

theorem TypeKind.label_injective : Function.Injective TypeKind.label := by
  intro a b same
  cases a <;> cases b <;> first | rfl | exact absurd same (by decide)

theorem StructKind.label_injective : Function.Injective StructKind.label := by
  intro a b same
  cases a <;> cases b <;> first | rfl | exact absurd same (by decide)

theorem Attributes.lookup_eq_none {entries : Attributes} {name : String}
    (missing : name ∉ entries.map Prod.fst) : entries.lookup name = none := by
  rw [List.lookup_eq_none_iff]
  intro entry member
  exact bne_iff_ne.mpr fun same => missing (List.mem_map.mpr ⟨entry, member, same.symm⟩)

/-- Lists with the same different names and with the same value under every name are equal. -/
theorem Attributes.eq_of_lookup {a b : Attributes} (names : a.map Prod.fst = b.map Prod.fst)
    (distinct : (a.map Prod.fst).Nodup)
    (same : ∀ name, (a.lookup name).join = (b.lookup name).join) : a = b := by
  induction a generalizing b with
  | nil => exact (List.map_eq_nil_iff.mp names.symm).symm
  | cons first rest ih =>
    obtain ⟨name, value⟩ := first
    obtain ⟨⟨otherName, other⟩, others, rfl, sameName, restNames⟩ := List.map_eq_cons_iff.mp names.symm
    obtain rfl : otherName = name := sameName
    obtain ⟨fresh, restDistinct⟩ := List.nodup_cons.mp distinct
    have head : value = other := by simpa using same otherName
    have tail : rest = others := by
      refine ih restNames.symm restDistinct fun wanted => ?_
      by_cases here : wanted = otherName
      · rw [here, lookup_eq_none fresh, lookup_eq_none (restNames ▸ fresh)]
      · simpa [List.lookup_cons, beq_false_of_ne here] using same wanted
    rw [head, tail]

/-- The attributes that tell items of a class apart, besides those that all items have. -/
def ItemClass.attributeNames : ItemClass → List String
  | .function => ["params", "output", "generics", "header"]
  | .method => ["parent", "params", "output", "generics", "header", "has_body"]
  | .type =>
    ["type_kind", "struct_kind", "generics", "fields", "variants", "fields_stripped", "aliased"]
  | .field => ["type"]
  | .traitDef => ["generics", "bounds", "is_unsafe", "is_auto", "members"]
  | .traitImpl =>
    ["trait", "for_type", "generics", "is_unsafe", "negative", "members", "methods"]
  | .assocType => ["generics", "bounds", "default"]
  | .assocConst => ["type", "default"]
  | .constant => ["type", "value", "is_static", "mutable"]

namespace AttributeValue

theorem map_text_inj {a b : Option String} : a.map text = b.map text ↔ a = b :=
  Option.map_inj_right fun _ _ => text.inj

theorem map_identity_inj {a b : Option Identity} : a.map identity = b.map identity ↔ a = b :=
  Option.map_inj_right fun _ _ => identity.inj

theorem map_structKind_inj {a b : Option StructKind} :
    a.map (fun kind => text kind.label) = b.map (fun kind => text kind.label) ↔ a = b :=
  Option.map_inj_right fun _ _ same => StructKind.label_injective (text.inj same)

end AttributeValue

namespace Form

theorem names_attributes (form : Form) :
    form.attributes.map Prod.fst = form.itemClass.attributeNames := by
  cases form <;> rfl

/-- Every part of a form is an attribute. -/
theorem eq_of_attributes {a b : Form} (sameClass : a.itemClass = b.itemClass)
    (same : a.attributes = b.attributes) : a = b := by
  -- forms of different classes contradict `sameClass`, which leaves one case for each class
  cases a <;> cases b <;> first | (cases sameClass; done) | skip
  all_goals
    simp only [attributes, Callable.attributes, List.cons_append, List.nil_append, List.cons.injEq,
      Prod.mk.injEq, Option.some.injEq, AttributeValue.text.injEq, AttributeValue.texts.injEq,
      AttributeValue.flag.injEq, AttributeValue.parameters.injEq, AttributeValue.header.injEq,
      AttributeValue.map_text_inj, AttributeValue.map_structKind_inj, true_and, and_true] at same
  case function.function => exact congrArg _ (by rw [Callable.mk.injEq]; exact same)
  case method.method =>
    obtain ⟨parents, params, outputs, generics, headers, bodies⟩ := same
    rw [method.injEq, Callable.mk.injEq]
    exact ⟨parents, ⟨params, outputs, generics, headers⟩, bodies⟩
  case type.type =>
    obtain ⟨kinds, rest⟩ := same
    rw [type.injEq, TypeForm.mk.injEq]
    exact ⟨TypeKind.label_injective kinds, rest⟩
  case traitDef.traitDef => rw [traitDef.injEq, TraitForm.mk.injEq]; exact same
  case traitImpl.traitImpl => rw [traitImpl.injEq, TraitImplForm.mk.injEq]; exact same
  all_goals simpa using same

end Form

namespace Item

/-- Two items say the same, deprecation apart. No comparison of attributes defines this. -/
structure Agrees (a b : Item) : Prop where
  name : a.name = b.name
  owner : a.owner = b.owner
  form : a.form = b.form

theorem Agrees.symm {a b : Item} (agree : Agrees a b) : Agrees b a :=
  ⟨agree.name.symm, agree.owner.symm, agree.form.symm⟩

theorem Agrees.itemClass {a b : Item} (agree : Agrees a b) : a.itemClass = b.itemClass :=
  congrArg Form.itemClass agree.form

theorem Agrees.attributes {a b : Item} (agree : Agrees a b) : a.attributes = b.attributes := by
  simp only [Item.attributes, agree.itemClass, agree.name, agree.owner, agree.form]

theorem names_attributes (item : Item) :
    item.attributes.map Prod.fst = "kind" :: "name" :: "owner" :: item.itemClass.attributeNames := by
  simp [attributes, Form.names_attributes, itemClass]

theorem nodup_names_attributes (item : Item) : (item.attributes.map Prod.fst).Nodup := by
  rw [names_attributes]
  cases item.itemClass <;> decide

/-- An attribute counts as changed exactly if its values differ. -/
theorem mem_changedAttributes {old new : Item} {name : String} :
    name ∈ changedAttributes old new ↔ old.attribute? name ≠ new.attribute? name := by
  simp only [changedAttributes, List.mem_mergeSort, List.mem_filter, List.mem_eraseDups,
    decide_eq_true_eq, and_iff_right_iff_imp, List.map_append, List.mem_append]
  intro differ
  by_contra absent
  rw [not_or] at absent
  refine differ ?_
  rw [attribute?, attribute?, Attributes.lookup_eq_none absent.1,
    Attributes.lookup_eq_none absent.2]

private theorem nodup_eraseDups (names : List String) : names.eraseDups.Nodup := by
  induction count : names.length using Nat.strong_induction_on generalizing names with
  | _ bound ih =>
    cases names with
    | nil => exact List.nodup_nil
    | cons name rest =>
      rw [List.eraseDups_cons, List.nodup_cons]
      have less : (rest.filter fun other => !other == name).length < bound := by
        rw [← count]
        exact Nat.lt_succ_of_le (List.length_filter_le _ rest)
      exact ⟨by simp, ih _ less _ rfl⟩

/-- Changed attributes are named in increasing order, each once. -/
theorem changedAttributes_increasing (old new : Item) :
    (changedAttributes old new).Pairwise (· < ·) := by
  have sorted : (changedAttributes old new).Pairwise fun a b => decide (a ≤ b) = true := by
    refine List.pairwise_mergeSort (fun a b c first second => ?_) (fun a b => ?_) _
    · exact decide_eq_true ((of_decide_eq_true first).trans (of_decide_eq_true second))
    · simpa using le_total a b
  have distinct : (changedAttributes old new).Nodup :=
    (List.mergeSort_perm _ _).nodup_iff.mpr ((nodup_eraseDups _).filter _)
  exact (sorted.and distinct).imp fun both => lt_of_le_of_ne (of_decide_eq_true both.1) both.2

/-- Two items of one class agree exactly if no attribute has changed. -/
theorem changedAttributes_eq_nil_iff {old new : Item} (sameClass : old.itemClass = new.itemClass) :
    changedAttributes old new = [] ↔ Agrees old new := by
  rw [List.eq_nil_iff_forall_not_mem]
  simp only [mem_changedAttributes, not_not]
  constructor
  · intro same
    have attributes_eq : old.attributes = new.attributes := by
      refine Attributes.eq_of_lookup ?_ (nodup_names_attributes old) same
      rw [names_attributes, names_attributes, sameClass]
    simp only [attributes, List.cons.injEq, Prod.mk.injEq, true_and, Option.some.injEq,
      AttributeValue.text.injEq, AttributeValue.map_identity_inj] at attributes_eq
    obtain ⟨_, names, owners, forms⟩ := attributes_eq
    exact ⟨names, owners, Form.eq_of_attributes sameClass forms⟩
  · intro agree name
    simp only [attribute?, agree.attributes]

end Item

end ApiDelta
