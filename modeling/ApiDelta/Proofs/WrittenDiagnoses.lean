import ApiDelta.Delta.Diagnosis
import ApiDelta.Proofs.ItemAgreement
import ApiDelta.Proofs.SchemaReading

/-!
A diagnosis outlives the program as JSON. Every class of items is written under the tag and the keys that
its own check expects and no others, so each item, each change and the whole diagnosis come back as they
were, whatever order the keys are kept in meanwhile.
-/
namespace ApiDelta

open Schema

theorem Identity.reads (id : Identity) : Reads Identity.check id.toJson id := by
  obtain ⟨path, kind⟩ := id
  have word : Reads (member IdKind.table) (.text kind.label) kind := by
    cases kind <;> exact reads_member (by decide) rfl
  refine reads_record rfl (by decide) (by decide) fun fields alike => ?_
  rw [required_of_alike alike rfl (reads_tuple_texts path), required_of_alike alike rfl word]
  rfl

/-! ## Items -/

namespace AttributeValue

/-- The value that an attribute is written with; an absent one is written as null. -/
def writtenOption (value : Option AttributeValue) : Json :=
  (value.map AttributeValue.toJson).getD .null

theorem reads_text_option (value : Option String) :
    Reads textOrNull (writtenOption (value.map text)) value := by
  cases value with
  | none => exact reads_textOrNull none
  | some value => exact reads_textOrNull (some value)

theorem reads_owner (owner : Option Identity) :
    Reads Item.ownerOrNull (writtenOption (owner.map identity)) owner := by
  cases owner with
  | none => exact fun | _, .refl _ => rfl
  | some id =>
    intro value same
    have read := id.reads value same
    cases same <;> exact congrArg (Checked.map some) read

theorem reads_structKind (kind : Option StructKind) :
    Reads Form.structKindOrNull (writtenOption (kind.map (text ·.label))) kind := by
  cases kind with
  | none => exact fun | _, .refl _ => rfl
  | some kind => cases kind <;> exact fun | _, .refl _ => rfl

theorem reads_typeKind (kind : TypeKind) : Reads (literal TypeKind.table) (.text kind.label) kind := by
  cases kind <;> exact reads_literal (by decide) rfl

end AttributeValue

/-- The keys and values that an item is written with. -/
def Item.fields (item : Item) : Fields :=
  ("deprecated", .bool item.deprecated) :: item.attributes.toFields

namespace Form

open AttributeValue

theorem callable_of_alike {c : Callable} {fields fields' : Fields} (alike : Alike fields fields')
    (params : fields.lookup "params" = some (.array (c.params.map Parameter.toJson)))
    (output : fields.lookup "output" = some (writtenOption (c.output.map text)))
    (generics : fields.lookup "generics" = some (Json.ofTexts c.generics))
    (header : fields.lookup "header" = some c.header.toJson) :
    checkCallable fields' = .sound c := by
  unfold checkCallable textOption texts
  rw [optional_of_alike alike params (reads_tupleOf fun p _ => p.reads "Param"),
    optional_of_alike alike output (reads_text_option c.output),
    optional_of_alike alike generics (reads_tuple_texts c.generics),
    optional_of_alike alike header (c.header.reads "FnHeader")]
  rfl

/-- The alternative that an item's tag names has the keys of its class, and makes the item's form of
them. -/
theorem exists_check (item : Item) : ∃ check : Fields → Checked Form,
    (checks.map fun (itemClass, keys, form) =>
        (itemClass.label, closed (commonKeys ++ keys) (Item.checkWith form))).lookup
          item.itemClass.label =
      some (closed (commonKeys ++ item.itemClass.attributeNames) (Item.checkWith check)) ∧
      ∀ fields, Alike item.fields fields → check fields = .sound item.form := by
  obtain ⟨name, deprecated, owner, form⟩ := item
  cases form with
  | function callable =>
    refine ⟨_, rfl, fun fields alike => ?_⟩
    rw [callable_of_alike alike rfl rfl rfl rfl]
    rfl
  | method parent callable hasBody =>
    refine ⟨_, rfl, fun fields alike => ?_⟩
    rw [flag, required_of_alike alike rfl (Schema.reads_text parent),
      callable_of_alike alike rfl rfl rfl rfl, optional_of_alike alike rfl (reads_boolean hasBody)]
    rfl
  | type form =>
    refine ⟨_, rfl, fun fields alike => ?_⟩
    unfold texts flag textOption
    rw [required_of_alike alike rfl (reads_typeKind form.typeKind),
      optional_of_alike alike rfl (reads_structKind form.structKind),
      optional_of_alike alike rfl (reads_tuple_texts form.generics),
      optional_of_alike alike rfl (reads_tuple_texts form.fields),
      optional_of_alike alike rfl (reads_tuple_texts form.variants),
      optional_of_alike alike rfl (reads_boolean form.fieldsStripped),
      optional_of_alike alike rfl (reads_text_option form.aliased)]
    rfl
  | field fieldType =>
    refine ⟨_, rfl, fun fields alike => ?_⟩
    rw [required_of_alike alike rfl (Schema.reads_text fieldType)]
    rfl
  | traitDef form =>
    refine ⟨_, rfl, fun fields alike => ?_⟩
    unfold texts flag
    rw [optional_of_alike alike rfl (reads_tuple_texts form.generics),
      optional_of_alike alike rfl (reads_tuple_texts form.bounds),
      optional_of_alike alike rfl (reads_boolean form.isUnsafe),
      optional_of_alike alike rfl (reads_boolean form.isAuto),
      optional_of_alike alike rfl (reads_tuple_texts form.members)]
    rfl
  | traitImpl form =>
    refine ⟨_, rfl, fun fields alike => ?_⟩
    unfold texts flag
    rw [required_of_alike alike rfl (Schema.reads_text form.trait),
      required_of_alike alike rfl (Schema.reads_text form.forType),
      optional_of_alike alike rfl (reads_tuple_texts form.generics),
      optional_of_alike alike rfl (reads_boolean form.isUnsafe),
      optional_of_alike alike rfl (reads_boolean form.negative),
      optional_of_alike alike rfl (reads_tuple_texts form.members),
      optional_of_alike alike rfl (reads_tuple_texts form.methods)]
    rfl
  | assocType generics bounds default =>
    refine ⟨_, rfl, fun fields alike => ?_⟩
    unfold texts textOption
    rw [optional_of_alike alike rfl (reads_tuple_texts generics),
      optional_of_alike alike rfl (reads_tuple_texts bounds),
      optional_of_alike alike rfl (reads_text_option default)]
    rfl
  | assocConst constType default =>
    refine ⟨_, rfl, fun fields alike => ?_⟩
    rw [textOption, required_of_alike alike rfl (Schema.reads_text constType),
      optional_of_alike alike rfl (reads_text_option default)]
    rfl
  | constant constType value isStatic mutable =>
    refine ⟨_, rfl, fun fields alike => ?_⟩
    unfold flag textOption
    rw [required_of_alike alike rfl (Schema.reads_text constType),
      optional_of_alike alike rfl (reads_text_option value),
      optional_of_alike alike rfl (reads_boolean isStatic),
      optional_of_alike alike rfl (reads_boolean mutable)]
    rfl

end Form

namespace Item

theorem keys_fields (item : Item) : item.fields.map Prod.fst =
    ["deprecated", "kind", "name", "owner"] ++ item.itemClass.attributeNames := by
  have written : item.attributes.toFields.map Prod.fst = item.attributes.map Prod.fst := by
    rw [Attributes.toFields, List.map_map]
    rfl
  rw [fields, List.map_cons, written, names_attributes]
  rfl

/-- An item is written with the keys that its class knows. -/
theorem keys_fields_perm (item : Item) :
    (item.fields.map Prod.fst).Perm (Form.commonKeys ++ item.itemClass.attributeNames) := by
  rw [keys_fields]
  exact List.Perm.append_right _ (by decide)

theorem reads (item : Item) : Reads Item.check item.toJson item := by
  obtain ⟨check, offered, read⟩ := Form.exists_check item
  have known : (Form.commonKeys ++ item.itemClass.attributeNames).Nodup ∧
      ∀ key ∈ Form.commonKeys ++ item.itemClass.attributeNames, Text.isWellFormed key := by
    cases item.itemClass <;> decide
  refine reads_choice (item.keys_fields_perm.nodup_iff.mpr known.1) rfl offered fun fields alike => ?_
  refine closed_of_alike known.2 alike (fun key => item.keys_fields_perm.mem_iff.mp) ?_
  rw [checkWith, required_of_alike alike rfl (reads_text item.name),
    optional_of_alike alike rfl (reads_boolean item.deprecated),
    optional_of_alike alike rfl (AttributeValue.reads_owner item.owner), read fields alike]
  rfl

end Item

/-! ## Changes -/

namespace Change

theorem single_of_alike {make : Identity → Item → Change} {tag : String} {id : Identity} {item : Item}
    {fields : Fields}
    (alike : Alike [("change", .text tag), ("item_id", id.toJson), ("item", item.toJson)] fields) :
    checkSingle make fields = .sound (make id item) := by
  refine closed_of_alike (by decide) alike (fun key member => member) ?_
  rw [required_of_alike alike rfl id.reads, required_of_alike alike rfl item.reads]
  rfl

theorem modified_of_alike {id : Identity} {old new : Item} {breaking : Bool}
    {changedFields : List String} {fields : Fields}
    (alike : Alike (modified id old new breaking changedFields).fields fields) :
    checkModified fields = .sound (modified id old new breaking changedFields) := by
  refine closed_of_alike (by decide) alike (fun key member => member) ?_
  rw [required_of_alike alike rfl id.reads, required_of_alike alike rfl old.reads,
    required_of_alike alike rfl new.reads, required_of_alike alike rfl (reads_boolean breaking),
    optional_of_alike alike rfl (reads_tuple_texts changedFields)]
  rfl

theorem nodup_keys_fields (change : Change) : (change.fields.map Prod.fst).Nodup := by
  have names : change.fields.map Prod.fst =
      match change.kind with
      | .modified => ["change", "item_id", "old", "new", "breaking", "changed_fields"]
      | _ => ["change", "item_id", "item"] := by
    cases change <;> rfl
  rw [names]
  cases change.kind <;> decide

theorem reads (change : Change) : Reads Change.check change.toJson change := by
  cases change with
  | removed id item =>
    exact reads_choice (nodup_keys_fields _) rfl rfl fun fields alike => single_of_alike alike
  | modified id old new breaking changedFields =>
    exact reads_choice (nodup_keys_fields _) rfl rfl fun fields alike => modified_of_alike alike
  | deprecated id item =>
    exact reads_choice (nodup_keys_fields _) rfl rfl fun fields alike => single_of_alike alike
  | added id item =>
    exact reads_choice (nodup_keys_fields _) rfl rfl fun fields alike => single_of_alike alike

end Change

namespace Diagnosis

theorem reads (d : Diagnosis) : Reads Diagnosis.check d.toJson d := by
  refine reads_record rfl (by decide) (by decide) fun fields alike => ?_
  rw [optional_of_alike alike rfl (reads_tupleOf fun change _ => change.reads)]
  rfl

/-- **A diagnosis is read back as it was written.** Its JSON form passes the check without a fault, and so
does every value that differs from it in the order of keys; what the check makes of it is the diagnosis,
with each change and each item in its own class, all parts equal and in the same order. -/
theorem written_is_read_back (d : Diagnosis) : Diagnosis.check d.toJson = .sound d ∧
    ∀ value, Json.Same d.toJson value → Diagnosis.check value = .sound d :=
  ⟨d.reads.self, d.reads⟩

/-- A method of a trait loses its body. -/
def lostBody : Change :=
  let method (hasBody : Bool) : Item :=
    { name := "f"
      owner := some ⟨["T"], .trait⟩
      form := .method "T" ⟨[⟨"self", "&Self"⟩], none, [], {}⟩ hasBody }
  .modified ⟨["T", "f"], .method⟩ (method true) (method false) true ["has_body"]

/-- The modification is read back although its tag has moved behind its other keys. -/
theorem written_is_read_back_tag_last :
    let moved : Fields := lostBody.fields.drop 1 ++ lostBody.fields.take 1
    let kept : Json := .object [("changes", .array [.object moved])]
    Json.Same (toJson ⟨[lostBody]⟩) kept ∧ Diagnosis.check kept = .sound ⟨[lostBody]⟩ := by
  intro moved kept
  have perm : lostBody.fields.Perm moved := by
    conv_lhs => rw [← List.take_append_drop 1 lostBody.fields]
    exact List.perm_append_comm
  have change : Json.Same lostBody.toJson (.object moved) := .of_perm lostBody.nodup_keys_fields perm
  have changes : Json.Same (.array [lostBody.toJson]) (.array [.object moved]) :=
    .array rfl fun
      | 0, _, _, rfl, rfl => change
  have same : Json.Same (toJson ⟨[lostBody]⟩) kept := by
    refine .object (.refl _) fun key value value' here there => ?_
    obtain ⟨rfl, rfl⟩ := Prod.mk.inj (List.mem_singleton.mp here)
    obtain ⟨_, rfl⟩ := Prod.mk.inj (List.mem_singleton.mp there)
    exact changes
  exact ⟨same, (written_is_read_back ⟨[lostBody]⟩).2 kept same⟩

end Diagnosis

end ApiDelta
