import ApiDelta.Callable

/-!
Declarations as a documentation extractor reports them. An extracted tree is an index of numbered
entries that refer to each other by number: a module lists its items, a type its fields and
implementations, a re-export its target. Nothing here says that a number leads anywhere.
-/
namespace ApiDelta.Tree

inductive StructShape
  | plain
  | tuple
  | unit
  deriving DecidableEq, Repr

inductive VariantShape
  | plain
  | tuple
  | struct
  deriving DecidableEq, Repr

/-- Kinds that are reported but take no part in a public interface. -/
inductive InertKind
  | macroRules
  | procMacro
  | externCrate
  | primitive
  | keyword
  deriving DecidableEq, Repr

structure ModuleDecl where
  name : String
  items : List Int := []
  deriving DecidableEq, Repr

/-- A function or a method. -/
structure FunctionDecl where
  name : String
  callable : Callable
  hasBody : Bool := true
  deriving DecidableEq, Repr

structure StructDecl where
  name : String
  shape : StructShape := .plain
  generics : List String := []
  fields : List Int := []
  fieldsStripped : Bool := false
  impls : List Int := []
  deriving DecidableEq, Repr

structure UnionDecl where
  name : String
  generics : List String := []
  fields : List Int := []
  fieldsStripped : Bool := false
  impls : List Int := []
  deriving DecidableEq, Repr

structure EnumDecl where
  name : String
  generics : List String := []
  variants : List Int := []
  variantsStripped : Bool := false
  impls : List Int := []
  deriving DecidableEq, Repr

structure VariantDecl where
  name : String
  shape : VariantShape := .plain
  fields : List Int := []
  fieldsStripped : Bool := false
  deriving DecidableEq, Repr

structure FieldDecl where
  name : String
  type : String
  deriving DecidableEq, Repr

structure TypedefDecl where
  name : String
  type : String
  generics : List String := []
  deriving DecidableEq, Repr

structure TraitDecl where
  name : String
  generics : List String := []
  bounds : List String := []
  items : List Int := []
  isUnsafe : Bool := false
  isAuto : Bool := false
  deriving DecidableEq, Repr

/-- A block of implementations for a type: of a trait, or of the type's own methods. It is synthetic
if the compiler supplies it for an auto trait, and blanket if it covers every type with some bound. -/
structure ImplDecl where
  forType : String
  trait : Option String := none
  generics : List String := []
  items : List Int := []
  isUnsafe : Bool := false
  negative : Bool := false
  synthetic : Bool := false
  blanket : Bool := false
  deriving DecidableEq, Repr

structure AssocTypeDecl where
  name : String
  generics : List String := []
  bounds : List String := []
  default : Option String := none
  deriving DecidableEq, Repr

structure AssocConstDecl where
  name : String
  type : String
  default : Option String := none
  deriving DecidableEq, Repr

structure ConstantDecl where
  name : String
  type : String
  value : Option String := none
  deriving DecidableEq, Repr

structure StaticDecl where
  name : String
  type : String
  mutable : Bool := false
  value : Option String := none
  deriving DecidableEq, Repr

/-- A re-export under a name, of one item or of everything in a module. The target is absent if it
could not be resolved. -/
structure ReexportDecl where
  name : String
  source : String
  target : Option Int := none
  glob : Bool := false
  deriving DecidableEq, Repr

structure InertDecl where
  kind : InertKind
  name : Option String := none
  deriving DecidableEq, Repr

inductive Declaration
  | module (decl : ModuleDecl)
  | function (decl : FunctionDecl)
  | method (decl : FunctionDecl)
  | struct (decl : StructDecl)
  | union (decl : UnionDecl)
  | enum (decl : EnumDecl)
  | variant (decl : VariantDecl)
  | structField (decl : FieldDecl)
  | typedef (decl : TypedefDecl)
  | trait (decl : TraitDecl)
  | impl (decl : ImplDecl)
  | assocType (decl : AssocTypeDecl)
  | assocConst (decl : AssocConstDecl)
  | constant (decl : ConstantDecl)
  | static (decl : StaticDecl)
  | reexport (decl : ReexportDecl)
  | inert (decl : InertDecl)
  deriving DecidableEq, Repr

namespace StructShape

def label : StructShape → String
  | .plain => "plain"
  | .tuple => "tuple"
  | .unit => "unit"

def table : List (String × StructShape) :=
  [StructShape.plain, .tuple, .unit].map fun shape => (shape.label, shape)

end StructShape

namespace VariantShape

def label : VariantShape → String
  | .plain => "plain"
  | .tuple => "tuple"
  | .struct => "struct"

def table : List (String × VariantShape) :=
  [VariantShape.plain, .tuple, .struct].map fun shape => (shape.label, shape)

end VariantShape

namespace InertKind

def label : InertKind → String
  | .macroRules => "macro"
  | .procMacro => "proc_macro"
  | .externCrate => "extern_crate"
  | .primitive => "primitive"
  | .keyword => "keyword"

def all : List InertKind :=
  [.macroRules, .procMacro, .externCrate, .primitive, .keyword]

end InertKind

namespace Declaration

/-- The kind as the extractor spells it. -/
def kind : Declaration → String
  | .module _ => "module"
  | .function _ => "function"
  | .method _ => "method"
  | .struct _ => "struct"
  | .union _ => "union"
  | .enum _ => "enum"
  | .variant _ => "variant"
  | .structField _ => "struct_field"
  | .typedef _ => "typedef"
  | .trait _ => "trait"
  | .impl _ => "impl"
  | .assocType _ => "assoc_type"
  | .assocConst _ => "assoc_const"
  | .constant _ => "constant"
  | .static _ => "static"
  | .reexport _ => "import"
  | .inert decl => decl.kind.label

/-- The kinds that an entry of an index may have. -/
def kinds : List String := [
  "module", "function", "method", "struct", "union", "enum", "variant", "struct_field", "typedef",
  "trait", "impl", "assoc_type", "assoc_const", "constant", "static", "import", "macro",
  "proc_macro", "extern_crate", "primitive", "keyword"]

end Declaration

/-- A declaration, with the flag that every kind has. -/
structure Entry where
  deprecated : Bool := false
  declaration : Declaration
  deriving DecidableEq, Repr

/-- Entries by number. -/
abbrev Index := List (Int × Entry)

/-- The number of the root module. -/
def rootId : Int := 0

end ApiDelta.Tree
