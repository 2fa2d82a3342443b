import ApiDelta.Callable
import ApiDelta.Identity

/-!
Public items. What all items have is a name, a deprecation flag, and an owner if they are members of a
type, a trait or the implementation of a trait; the rest is the item's form. `attributes` spells an
item out as named values, and two items are compared attribute by attribute, deprecation apart.
-/
namespace ApiDelta

inductive TypeKind
  | struct
  | union
  | enum
  | typedef
  deriving DecidableEq, Repr

inductive StructKind
  | plain
  | tuple
  | unit
  deriving DecidableEq, Repr

def TypeKind.label : TypeKind → String
  | .struct => "struct"
  | .union => "union"
  | .enum => "enum"
  | .typedef => "typedef"

def TypeKind.table : List (String × TypeKind) :=
  [TypeKind.struct, .union, .enum, .typedef].map fun kind => (kind.label, kind)

def StructKind.label : StructKind → String
  | .plain => "plain"
  | .tuple => "tuple"
  | .unit => "unit"

def StructKind.table : List (String × StructKind) :=
  [StructKind.plain, .tuple, .unit].map fun kind => (kind.label, kind)

/-- A type. Its fields and variants are sorted names, a field of a variant being `Variant::field`;
`fieldsStripped` says that more of them are hidden from the public. -/
structure TypeForm where
  typeKind : TypeKind
  structKind : Option StructKind := none
  generics : List String := []
  fields : List String := []
  variants : List String := []
  fieldsStripped : Bool := false
  aliased : Option String := none
  deriving DecidableEq, Repr

/-- A trait, with the sorted names of its members. -/
structure TraitForm where
  generics : List String := []
  bounds : List String := []
  isUnsafe : Bool := false
  isAuto : Bool := false
  members : List String := []
  deriving DecidableEq, Repr

/-- The implementation of a trait, with the sorted names of its methods and of its other members. -/
structure TraitImplForm where
  trait : String
  forType : String
  generics : List String := []
  isUnsafe : Bool := false
  negative : Bool := false
  members : List String := []
  methods : List String := []
  deriving DecidableEq, Repr

/-- The part of an item that depends on its class. The parent of a method is the displayed path of the
type or trait it is called on. -/
inductive Form
  | function (callable : Callable)
  | method (parent : String) (callable : Callable) (hasBody : Bool)
  | type (form : TypeForm)
  | field (type : String)
  | traitDef (form : TraitForm)
  | traitImpl (form : TraitImplForm)
  | assocType (generics bounds : List String) (default : Option String)
  | assocConst (type : String) (default : Option String)
  | constant (type : String) (value : Option String) (isStatic mutable : Bool)
  deriving DecidableEq, Repr

structure Item where
  name : String
  deprecated : Bool := false
  owner : Option Identity := none
  form : Form
  deriving DecidableEq, Repr

/-- The class of an item. -/
inductive ItemClass
  | function
  | method
  | type
  | field
  | traitDef
  | traitImpl
  | assocType
  | assocConst
  | constant
  deriving DecidableEq, Repr

def ItemClass.label : ItemClass → String
  | .function => "function"
  | .method => "method"
  | .type => "type"
  | .field => "field"
  | .traitDef => "trait_def"
  | .traitImpl => "trait_impl"
  | .assocType => "assoc_type"
  | .assocConst => "assoc_const"
  | .constant => "constant"

def Form.itemClass : Form → ItemClass
  | .function .. => .function
  | .method .. => .method
  | .type .. => .type
  | .field .. => .field
  | .traitDef .. => .traitDef
  | .traitImpl .. => .traitImpl
  | .assocType .. => .assocType
  | .assocConst .. => .assocConst
  | .constant .. => .constant

/-- The value of an attribute. -/
inductive AttributeValue
  | text (value : String)
  | flag (value : Bool)
  | texts (values : List String)
  | parameters (values : List Parameter)
  | header (value : Header)
  | identity (value : Identity)
  deriving DecidableEq, Repr

/-- Named attributes; one without a value counts as absent. -/
abbrev Attributes := List (String × Option AttributeValue)

namespace Callable

def attributes (c : Callable) : Attributes :=
  [("params", some (.parameters c.params)), ("output", c.output.map .text),
    ("generics", some (.texts c.generics)), ("header", some (.header c.header))]

end Callable

namespace Form

def attributes : Form → Attributes
  | .function callable => callable.attributes
  | .method parent callable hasBody =>
    ("parent", some (.text parent)) :: callable.attributes ++ [("has_body", some (.flag hasBody))]
  | .type form =>
    [("type_kind", some (.text form.typeKind.label)),
      ("struct_kind", form.structKind.map (.text ·.label)),
      ("generics", some (.texts form.generics)), ("fields", some (.texts form.fields)),
      ("variants", some (.texts form.variants)),
      ("fields_stripped", some (.flag form.fieldsStripped)), ("aliased", form.aliased.map .text)]
  | .field fieldType => [("type", some (.text fieldType))]
  | .traitDef form =>
    [("generics", some (.texts form.generics)), ("bounds", some (.texts form.bounds)),
      ("is_unsafe", some (.flag form.isUnsafe)), ("is_auto", some (.flag form.isAuto)),
      ("members", some (.texts form.members))]
  | .traitImpl form =>
    [("trait", some (.text form.trait)), ("for_type", some (.text form.forType)),
      ("generics", some (.texts form.generics)), ("is_unsafe", some (.flag form.isUnsafe)),
      ("negative", some (.flag form.negative)), ("members", some (.texts form.members)),
      ("methods", some (.texts form.methods))]
  | .assocType generics bounds default =>
    [("generics", some (.texts generics)), ("bounds", some (.texts bounds)),
      ("default", default.map .text)]
  | .assocConst constType default =>
    [("type", some (.text constType)), ("default", default.map .text)]
  | .constant constType value isStatic mutable =>
    [("type", some (.text constType)), ("value", value.map .text),
      ("is_static", some (.flag isStatic)), ("mutable", some (.flag mutable))]

/-- The bounds of a trait or an associated type, after a colon. -/
def boundsText (bounds : List String) : String :=
  if bounds.isEmpty then "" else ": " ++ String.intercalate " + " bounds

/-- One line that declares an item of this form under a name. -/
def signature (name : String) : Form → String
  | .function callable => callable.signature name
  | .method _ callable _ => callable.signature name
  | .type form =>
    if form.typeKind = .typedef then
      "type " ++ name ++ genericsText form.generics ++ " = " ++ form.aliased.getD "None"
    else form.typeKind.label ++ " " ++ name ++ genericsText form.generics
  | .field fieldType => name ++ ": " ++ fieldType
  | .traitDef form => "trait " ++ name ++ genericsText form.generics ++ boundsText form.bounds
  | .traitImpl form =>
    "impl" ++ genericsText form.generics ++ " " ++ (if form.negative then "!" else "") ++
      form.trait ++ " for " ++ form.forType
  | .assocType _ bounds default =>
    "type " ++ name ++ boundsText bounds ++ trailing " = " default
  | .assocConst constType default =>
    "const " ++ name ++ ": " ++ constType ++ trailing " = " default
  | .constant constType value isStatic mutable =>
    (if mutable then "static mut" else if isStatic then "static" else "const") ++ " " ++ name ++
      ": " ++ constType ++ trailing " = " value

end Form

namespace Item

def itemClass (item : Item) : ItemClass :=
  item.form.itemClass

def signature (item : Item) : String :=
  item.form.signature item.name

/-- A member is reported through its owner when it appears or vanishes. -/
def isMember (item : Item) : Bool :=
  item.owner.isSome

/-- All attributes that take part in the comparison of items, which is all but deprecation. -/
def attributes (item : Item) : Attributes :=
  ("kind", some (.text item.itemClass.label)) :: ("name", some (.text item.name)) ::
    ("owner", item.owner.map .identity) :: item.form.attributes

/-- The value of an attribute; an item without the attribute has none. -/
def attribute? (item : Item) (name : String) : Option AttributeValue :=
  (item.attributes.lookup name).join

/-- The sorted names of the attributes in which two items differ. -/
def changedAttributes (old new : Item) : List String :=
  let names := (old.attributes ++ new.attributes).map Prod.fst
  (names.eraseDups.filter fun name => old.attribute? name ≠ new.attribute? name).mergeSort
    fun a b => decide (a ≤ b)

end Item

end ApiDelta
