import ApiDelta.Tree.Declaration

/-!
Declarations as JSON. Each kind has its record; keys that a record does not know are ignored, since
extractors attach documentation and links. Writing gives every key of the record, and reading what was
written gives the declaration back.
-/
namespace ApiDelta.Tree

open Schema

def ofNumbers (numbers : List Int) : Json :=
  .array (numbers.map .int)

def numbers (fields : Fields) (key : String) : Checked (List Int) :=
  optional fields key [] (listOf integer)

def texts (fields : Fields) (key : String) : Checked (List String) :=
  optional fields key [] (listOf text)

def flag (fields : Fields) (key : String) (default : Bool) : Checked Bool :=
  optional fields key default boolean

def textOption (fields : Fields) (key : String) : Checked (Option String) :=
  optional fields key none textOrNull

def name (fields : Fields) : Checked String :=
  required fields "name" text

namespace ModuleDecl

def check (fields : Fields) : Checked ModuleDecl :=
  mk <$> Tree.name fields <*> numbers fields "items"

def toFields (d : ModuleDecl) : Fields :=
  [("name", .text d.name), ("items", ofNumbers d.items)]

end ModuleDecl

namespace FunctionDecl

def checkCallable (fields : Fields) : Checked Callable :=
  Callable.mk <$> optional fields "params" [] (listOf (Parameter.check "RawParam"))
    <*> textOption fields "output"
    <*> texts fields "generics"
    <*> optional fields "header" {} (Header.check "RawHeader")

def check (fields : Fields) : Checked FunctionDecl :=
  mk <$> Tree.name fields <*> checkCallable fields <*> flag fields "has_body" true

def toFields (d : FunctionDecl) : Fields :=
  [("name", .text d.name), ("params", .array (d.callable.params.map Parameter.toJson)),
    ("output", Json.ofTextOption d.callable.output), ("generics", Json.ofTexts d.callable.generics),
    ("header", d.callable.header.toJson), ("has_body", .bool d.hasBody)]

end FunctionDecl

namespace StructDecl

def check (fields : Fields) : Checked StructDecl :=
  mk <$> Tree.name fields
    <*> optional fields "struct_kind" .plain (literal StructShape.table)
    <*> texts fields "generics"
    <*> numbers fields "fields"
    <*> flag fields "fields_stripped" false
    <*> numbers fields "impls"

def toFields (d : StructDecl) : Fields :=
  [("name", .text d.name), ("struct_kind", .text d.shape.label),
    ("generics", Json.ofTexts d.generics), ("fields", ofNumbers d.fields),
    ("fields_stripped", .bool d.fieldsStripped), ("impls", ofNumbers d.impls)]

end StructDecl

namespace UnionDecl

def check (fields : Fields) : Checked UnionDecl :=
  mk <$> Tree.name fields
    <*> texts fields "generics"
    <*> numbers fields "fields"
    <*> flag fields "fields_stripped" false
    <*> numbers fields "impls"

def toFields (d : UnionDecl) : Fields :=
  [("name", .text d.name), ("generics", Json.ofTexts d.generics), ("fields", ofNumbers d.fields),
    ("fields_stripped", .bool d.fieldsStripped), ("impls", ofNumbers d.impls)]

end UnionDecl

namespace EnumDecl

def check (fields : Fields) : Checked EnumDecl :=
  mk <$> Tree.name fields
    <*> texts fields "generics"
    <*> numbers fields "variants"
    <*> flag fields "variants_stripped" false
    <*> numbers fields "impls"

def toFields (d : EnumDecl) : Fields :=
  [("name", .text d.name), ("generics", Json.ofTexts d.generics),
    ("variants", ofNumbers d.variants), ("variants_stripped", .bool d.variantsStripped),
    ("impls", ofNumbers d.impls)]

end EnumDecl

namespace VariantDecl

def check (fields : Fields) : Checked VariantDecl :=
  mk <$> Tree.name fields
    <*> optional fields "variant_kind" .plain (literal VariantShape.table)
    <*> numbers fields "fields"
    <*> flag fields "fields_stripped" false

def toFields (d : VariantDecl) : Fields :=
  [("name", .text d.name), ("variant_kind", .text d.shape.label), ("fields", ofNumbers d.fields),
    ("fields_stripped", .bool d.fieldsStripped)]

end VariantDecl

namespace FieldDecl

def check (fields : Fields) : Checked FieldDecl :=
  mk <$> Tree.name fields <*> required fields "type" text

def toFields (d : FieldDecl) : Fields :=
  [("name", .text d.name), ("type", .text d.type)]

end FieldDecl

namespace TypedefDecl

def check (fields : Fields) : Checked TypedefDecl :=
  mk <$> Tree.name fields <*> required fields "type" text <*> texts fields "generics"

def toFields (d : TypedefDecl) : Fields :=
  [("name", .text d.name), ("type", .text d.type), ("generics", Json.ofTexts d.generics)]

end TypedefDecl

namespace TraitDecl

def check (fields : Fields) : Checked TraitDecl :=
  mk <$> Tree.name fields
    <*> texts fields "generics"
    <*> texts fields "bounds"
    <*> numbers fields "items"
    <*> flag fields "is_unsafe" false
    <*> flag fields "is_auto" false

def toFields (d : TraitDecl) : Fields :=
  [("name", .text d.name), ("generics", Json.ofTexts d.generics),
    ("bounds", Json.ofTexts d.bounds), ("items", ofNumbers d.items),
    ("is_unsafe", .bool d.isUnsafe), ("is_auto", .bool d.isAuto)]

end TraitDecl

namespace ImplDecl

/-- The type that is implemented for stands under `for`, or else under `for_`. -/
def checkForType (fields : Fields) : Checked String :=
  match fields.lookup "for", fields.lookup "for_" with
  | none, some _ => required fields "for_" text
  | _, _ => required fields "for" text

def check (fields : Fields) : Checked ImplDecl :=
  mk <$> checkForType fields
    <*> textOption fields "trait"
    <*> texts fields "generics"
    <*> numbers fields "items"
    <*> flag fields "is_unsafe" false
    <*> flag fields "negative" false
    <*> flag fields "synthetic" false
    <*> flag fields "blanket" false

def toFields (d : ImplDecl) : Fields :=
  [("for", .text d.forType), ("trait", Json.ofTextOption d.trait),
    ("generics", Json.ofTexts d.generics), ("items", ofNumbers d.items),
    ("is_unsafe", .bool d.isUnsafe), ("negative", .bool d.negative),
    ("synthetic", .bool d.synthetic), ("blanket", .bool d.blanket)]

end ImplDecl

namespace AssocTypeDecl

def check (fields : Fields) : Checked AssocTypeDecl :=
  mk <$> Tree.name fields
    <*> texts fields "generics"
    <*> texts fields "bounds"
    <*> textOption fields "default"

def toFields (d : AssocTypeDecl) : Fields :=
  [("name", .text d.name), ("generics", Json.ofTexts d.generics),
    ("bounds", Json.ofTexts d.bounds), ("default", Json.ofTextOption d.default)]

end AssocTypeDecl

namespace AssocConstDecl

def check (fields : Fields) : Checked AssocConstDecl :=
  mk <$> Tree.name fields <*> required fields "type" text <*> textOption fields "default"

def toFields (d : AssocConstDecl) : Fields :=
  [("name", .text d.name), ("type", .text d.type), ("default", Json.ofTextOption d.default)]

end AssocConstDecl

namespace ConstantDecl

def check (fields : Fields) : Checked ConstantDecl :=
  mk <$> Tree.name fields <*> required fields "type" text <*> textOption fields "value"

def toFields (d : ConstantDecl) : Fields :=
  [("name", .text d.name), ("type", .text d.type), ("value", Json.ofTextOption d.value)]

end ConstantDecl

namespace StaticDecl

def check (fields : Fields) : Checked StaticDecl :=
  mk <$> Tree.name fields
    <*> required fields "type" text
    <*> flag fields "mutable" false
    <*> textOption fields "value"

def toFields (d : StaticDecl) : Fields :=
  [("name", .text d.name), ("type", .text d.type), ("mutable", .bool d.mutable),
    ("value", Json.ofTextOption d.value)]

end StaticDecl

namespace ReexportDecl

def check (fields : Fields) : Checked ReexportDecl :=
  mk <$> Tree.name fields
    <*> required fields "source" text
    <*> optional fields "target" none integerOrNull
    <*> flag fields "glob" false

def toFields (d : ReexportDecl) : Fields :=
  [("name", .text d.name), ("source", .text d.source),
    ("target", match d.target with
      | some id => .int id
      | none => .null),
    ("glob", .bool d.glob)]

end ReexportDecl

namespace InertDecl

def check (kind : InertKind) (fields : Fields) : Checked InertDecl :=
  mk kind <$> textOption fields "name"

def toFields (d : InertDecl) : Fields :=
  [("name", Json.ofTextOption d.name)]

end InertDecl

namespace Declaration

/-- For each kind, the check of its record. -/
def checks : List (String × (Fields → Checked Declaration)) := [
  ("module", fun fields => module <$> ModuleDecl.check fields),
  ("function", fun fields => function <$> FunctionDecl.check fields),
  ("method", fun fields => method <$> FunctionDecl.check fields),
  ("struct", fun fields => struct <$> StructDecl.check fields),
  ("union", fun fields => union <$> UnionDecl.check fields),
  ("enum", fun fields => enum <$> EnumDecl.check fields),
  ("variant", fun fields => variant <$> VariantDecl.check fields),
  ("struct_field", fun fields => structField <$> FieldDecl.check fields),
  ("typedef", fun fields => typedef <$> TypedefDecl.check fields),
  ("trait", fun fields => trait <$> TraitDecl.check fields),
  ("impl", fun fields => impl <$> ImplDecl.check fields),
  ("assoc_type", fun fields => assocType <$> AssocTypeDecl.check fields),
  ("assoc_const", fun fields => assocConst <$> AssocConstDecl.check fields),
  ("constant", fun fields => constant <$> ConstantDecl.check fields),
  ("static", fun fields => static <$> StaticDecl.check fields),
  ("import", fun fields => reexport <$> ReexportDecl.check fields)] ++
  InertKind.all.map fun kind => (kind.label, fun fields => inert <$> InertDecl.check kind fields)

/-- There is one record for each kind, and none for anything else. -/
theorem map_fst_checks : checks.map Prod.fst = kinds := rfl

def toFields : Declaration → Fields
  | .module decl => decl.toFields
  | .function decl => decl.toFields
  | .method decl => decl.toFields
  | .struct decl => decl.toFields
  | .union decl => decl.toFields
  | .enum decl => decl.toFields
  | .variant decl => decl.toFields
  | .structField decl => decl.toFields
  | .typedef decl => decl.toFields
  | .trait decl => decl.toFields
  | .impl decl => decl.toFields
  | .assocType decl => decl.toFields
  | .assocConst decl => decl.toFields
  | .constant decl => decl.toFields
  | .static decl => decl.toFields
  | .reexport decl => decl.toFields
  | .inert decl => decl.toFields

end Declaration

namespace Entry

def checkWith (declaration : Fields → Checked Declaration) (fields : Fields) : Checked Entry :=
  mk <$> flag fields "deprecated" false <*> declaration fields

def check : Json → Checked Entry :=
  choice "kind" <| Declaration.checks.map fun (kind, declaration) => (kind, checkWith declaration)

def toJson (entry : Entry) : Json :=
  .object (("kind", .text entry.declaration.kind) :: ("deprecated", .bool entry.deprecated) ::
    entry.declaration.toFields)

end Entry

end ApiDelta.Tree
