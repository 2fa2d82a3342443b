import ApiDelta.Item.Basic

/-!
Items as JSON. An item is written with every attribute of its class and its deprecation flag; reading
accepts what writing produces, fills in defaults for optional attributes, and tells the class from the
text under `kind`.
-/
namespace ApiDelta

open Schema

namespace AttributeValue

def toJson : AttributeValue → Json
  | .text value => .text value
  | .flag value => .bool value
  | .texts values => Json.ofTexts values
  | .parameters values => .array (values.map Parameter.toJson)
  | .header value => value.toJson
  | .identity value => value.toJson

end AttributeValue

def Attributes.toFields (attributes : Attributes) : Fields :=
  attributes.map fun (name, value) => (name, (value.map AttributeValue.toJson).getD .null)

def Item.toJson (item : Item) : Json :=
  .object (("deprecated", .bool item.deprecated) :: item.attributes.toFields)

namespace Form

def commonKeys : List String := ["name", "deprecated", "owner", "kind"]

/-- An optional attribute that is a list of texts. -/
def texts (fields : Fields) (key : String) : Checked (List String) :=
  optional fields key [] (tupleOf text)

def flag (fields : Fields) (key : String) (default : Bool) : Checked Bool :=
  optional fields key default boolean

def textOption (fields : Fields) (key : String) : Checked (Option String) :=
  optional fields key none textOrNull

def checkCallable (fields : Fields) : Checked Callable :=
  Callable.mk <$> optional fields "params" [] (tupleOf (Parameter.check "Param"))
    <*> textOption fields "output"
    <*> texts fields "generics"
    <*> optional fields "header" {} (Header.check "FnHeader")

def callableKeys : List String := ["params", "output", "generics", "header"]

def structKindOrNull : Json → Checked (Option StructKind)
  | .null => .sound none
  | value => (literal StructKind.table value).map some

/-- For each class, the keys of its own and the check of their values. -/
def checks : List (ItemClass × List String × (Fields → Checked Form)) := [
  (.function, callableKeys, fun fields => function <$> checkCallable fields),
  (.method, "parent" :: callableKeys ++ ["has_body"], fun fields =>
    method <$> required fields "parent" text <*> checkCallable fields
      <*> flag fields "has_body" true),
  (.type, ["type_kind", "struct_kind", "generics", "fields", "variants", "fields_stripped",
      "aliased"], fun fields =>
    type <$> (TypeForm.mk <$> required fields "type_kind" (literal TypeKind.table)
      <*> optional fields "struct_kind" none structKindOrNull
      <*> texts fields "generics"
      <*> texts fields "fields"
      <*> texts fields "variants"
      <*> flag fields "fields_stripped" false
      <*> textOption fields "aliased")),
  (.field, ["type"], fun fields => field <$> required fields "type" text),
  (.traitDef, ["generics", "bounds", "is_unsafe", "is_auto", "members"], fun fields =>
    traitDef <$> (TraitForm.mk <$> texts fields "generics"
      <*> texts fields "bounds"
      <*> flag fields "is_unsafe" false
      <*> flag fields "is_auto" false
      <*> texts fields "members")),
  (.traitImpl, ["trait", "for_type", "generics", "is_unsafe", "negative", "members", "methods"],
    fun fields =>
    traitImpl <$> (TraitImplForm.mk <$> required fields "trait" text
      <*> required fields "for_type" text
      <*> texts fields "generics"
      <*> flag fields "is_unsafe" false
      <*> flag fields "negative" false
      <*> texts fields "members"
      <*> texts fields "methods")),
  (.assocType, ["generics", "bounds", "default"], fun fields =>
    assocType <$> texts fields "generics" <*> texts fields "bounds"
      <*> textOption fields "default"),
  (.assocConst, ["type", "default"], fun fields =>
    assocConst <$> required fields "type" text <*> textOption fields "default"),
  (.constant, ["type", "value", "is_static", "mutable"], fun fields =>
    constant <$> required fields "type" text <*> textOption fields "value"
      <*> flag fields "is_static" false <*> flag fields "mutable" false)]

end Form

namespace Item

def ownerOrNull : Json → Checked (Option Identity)
  | .null => .sound none
  | value => (Identity.check value).map some

/-- An item whose form is checked by the given check. -/
def checkWith (form : Fields → Checked Form) (fields : Fields) : Checked Item :=
  mk <$> required fields "name" text
    <*> optional fields "deprecated" false boolean
    <*> optional fields "owner" none ownerOrNull
    <*> form fields

def check : Json → Checked Item :=
  choice "kind" <| Form.checks.map fun (itemClass, keys, form) =>
    (itemClass.label, closed (Form.commonKeys ++ keys) (checkWith form))

/-- What faults of an item are reported to concern. -/
def wanted : String :=
  "tagged-union[FunctionItem,MethodItem,TypeItem,FieldItem,TraitDefItem,TraitImplItem," ++
    "AssocTypeItem,AssocConstItem,ConstantItem]"

end Item

end ApiDelta
