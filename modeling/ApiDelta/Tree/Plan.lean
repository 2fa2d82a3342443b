import ApiDelta.Item.Basic
import ApiDelta.Tree.Basic

/-!
What becomes of one entry of a tree. A task asks for an entry, under a path, in one of four ways: a
module lists it, a re-export names it, a re-export of a whole module splices it in, or a type lists it
among its implementations. A plan answers a task with actions, carried out one after the other up to
the first refusal, and with further tasks. The plan of a task depends on the tree alone, not on what
was met before; the walk over the tree takes care of that.

Modules are scaffolding: they lend their name to paths and are not published. Implementations are
reached through the type they belong to, never through a module. The fields and members of an item are
published before the item itself, which records their sorted names.
-/
namespace ApiDelta.Tree

/-- How an entry is asked for. -/
inductive Via
  | listed (referrer : Int)
  | named (importer : Int) (name source : String)
  | spliced (source : String)
  | attached (type : Identity) (referrer : Int)
  deriving DecidableEq, Repr

structure Task where
  id : Int
  path : List String
  via : Via
  deriving DecidableEq, Repr

/-- What the walk tells about entries that it passes over. -/
inductive Skipped
  | inert (kind : InertKind) (id : Int) (name : Option String)
  | outside (source : String)
  | globOfItem (source : String)
  | impl (synthetic : Bool) (id : Int) (type : Identity)
  deriving DecidableEq, Repr

def Skipped.message : Skipped → String
  | .inert kind id name =>
      let shown := name.getD "None"
      s!"skipping {kind.label} item {id} ({shown})"
  | .outside source => s!"skipping re-export of {source}: target is outside the crate"
  | .globOfItem source => s!"skipping glob re-export of non-module {source}"
  | .impl synthetic id type =>
    let sort := if synthetic then "auto" else "blanket"
    s!"skipping {sort} impl {id} for {type.display}"

/-- An item under its identity, and the number of the entry that it tells of. -/
structure Publication where
  source : Int
  id : Identity
  item : Item
  deriving DecidableEq, Repr

inductive Action
  | visit (id : Int)
  | publish (publication : Publication)
  | skip (skipped : Skipped)
  | refuse (problem : Problem)
  deriving DecidableEq, Repr

structure Plan where
  actions : List Action
  next : List Task := []
  deriving DecidableEq, Repr

def sortTexts (texts : List String) : List String :=
  texts.mergeSort fun a b => decide (a ≤ b)

/-! ## Fields and variants -/

/-- The field that a number must lead to. -/
def field? (tree : Tree) (referrer id : Int) : Except Problem (Bool × FieldDecl) :=
  match tree.entry? id with
  | none => .error (.dangling id referrer)
  | some ⟨deprecated, .structField decl⟩ => .ok (deprecated, decl)
  | some entry => .error (.misplaced id entry.declaration.kind (.fieldOf referrer))

/-- Publishes a field of a type under the given path. -/
def fieldActions (tree : Tree) (type : Identity) (path : List String) (referrer id : Int) :
    List Action :=
  match tree.field? referrer id with
  | .error problem => [.refuse problem]
  | .ok (deprecated, decl) =>
    [.visit id, .publish {
      source := id
      id := ⟨path ++ [decl.name], .structField⟩
      item := {
        name := decl.name, deprecated := deprecated, owner := some type
        form := .field decl.type } }]

/-- The names of the fields that the numbers lead to. -/
def fieldNames (tree : Tree) (referrer : Int) (ids : List Int) : List String :=
  ids.filterMap fun id => (tree.field? referrer id).toOption.map fun field => field.2.name

/-- The variant that a number must lead to. -/
def variant? (tree : Tree) (referrer id : Int) : Except Problem VariantDecl :=
  match tree.entry? id with
  | none => .error (.dangling id referrer)
  | some ⟨_, .variant decl⟩ => .ok decl
  | some entry => .error (.misplaced id entry.declaration.kind (.variantOf referrer))

/-- The variants that the numbers lead to, with their numbers. -/
def variants (tree : Tree) (referrer : Int) (ids : List Int) : List (Int × VariantDecl) :=
  ids.filterMap fun id => (tree.variant? referrer id).toOption.map fun decl => (id, decl)

/-- Publishes the fields of a variant of a type. -/
def variantActions (tree : Tree) (type : Identity) (referrer id : Int) : List Action :=
  match tree.variant? referrer id with
  | .error problem => [.refuse problem]
  | .ok decl =>
    .visit id :: decl.fields.flatMap (tree.fieldActions type (type.path ++ [decl.name]) id)

/-- The names of all fields of the variants, each after the name of its variant. -/
def variantFieldNames (tree : Tree) (referrer : Int) (ids : List Int) : List String :=
  (tree.variants referrer ids).flatMap fun (id, decl) =>
    (tree.fieldNames id decl.fields).map fun name => decl.name ++ "::" ++ name

/-! ## Types -/

/-- Publishes a type after its parts, and goes on to its implementations. -/
def typePlan (id : Int) (deprecated : Bool) (type : Identity) (name : String)
    (parts : List Action) (form : TypeForm) (impls : List Int) : Plan where
  actions := .visit id :: parts ++
    [.publish ⟨id, type, { name := name, deprecated := deprecated, form := .type form }⟩]
  next := impls.map fun impl => ⟨impl, type.path, .attached type id⟩

def StructShape.structKind : StructShape → StructKind
  | .plain => .plain
  | .tuple => .tuple
  | .unit => .unit

def structPlan (tree : Tree) (id : Int) (deprecated : Bool) (path : List String) (name : String)
    (decl : StructDecl) : Plan :=
  let type : Identity := ⟨path ++ [name], .struct⟩
  typePlan id deprecated type name (decl.fields.flatMap (tree.fieldActions type type.path id))
    { typeKind := .struct
      structKind := some decl.shape.structKind
      generics := decl.generics
      fields := sortTexts (tree.fieldNames id decl.fields)
      fieldsStripped := decl.fieldsStripped }
    decl.impls

def unionPlan (tree : Tree) (id : Int) (deprecated : Bool) (path : List String) (name : String)
    (decl : UnionDecl) : Plan :=
  let type : Identity := ⟨path ++ [name], .union⟩
  typePlan id deprecated type name (decl.fields.flatMap (tree.fieldActions type type.path id))
    { typeKind := .union
      generics := decl.generics
      fields := sortTexts (tree.fieldNames id decl.fields)
      fieldsStripped := decl.fieldsStripped }
    decl.impls

/-- An enumeration hides parts if variants are hidden, or fields of a variant that is not. -/
def enumPlan (tree : Tree) (id : Int) (deprecated : Bool) (path : List String) (name : String)
    (decl : EnumDecl) : Plan :=
  let type : Identity := ⟨path ++ [name], .enum⟩
  let variants := tree.variants id decl.variants
  typePlan id deprecated type name (decl.variants.flatMap (tree.variantActions type id))
    { typeKind := .enum
      generics := decl.generics
      fields := sortTexts (tree.variantFieldNames id decl.variants)
      variants := sortTexts (variants.map (·.2.name))
      fieldsStripped := decl.variantsStripped || variants.any (·.2.fieldsStripped) }
    decl.impls

/-! ## Members of traits and implementations -/

def methodItem (deprecated : Bool) (name parent : String) (owner : Option Identity)
    (decl : FunctionDecl) : Item where
  name := name
  deprecated := deprecated
  owner := owner
  form := .method parent decl.callable decl.hasBody

/-- A declaration as a member, if its kind can be one. -/
def memberItem? (entry : Entry) (parent : String) (owner : Option Identity) :
    Option (IdKind × Item) :=
  match entry.declaration with
  | .function decl => some (.method, methodItem entry.deprecated decl.name parent owner decl)
  | .method decl => some (.method, methodItem entry.deprecated decl.name parent owner decl)
  | .assocType decl => some (.assocType, {
      name := decl.name, deprecated := entry.deprecated, owner := owner
      form := .assocType decl.generics decl.bounds decl.default })
  | .assocConst decl => some (.assocConst, {
      name := decl.name, deprecated := entry.deprecated, owner := owner
      form := .assocConst decl.type decl.default })
  | _ => none

/-- The member that a number must lead to. -/
def member? (tree : Tree) (parent : String) (owner : Option Identity) (referrer id : Int) :
    Except Problem (IdKind × Item) :=
  match tree.entry? id with
  | none => .error (.dangling id referrer)
  | some entry =>
    match memberItem? entry parent owner with
    | some member => .ok member
    | none => .error (.misplaced id entry.declaration.kind (.memberOf referrer))

/-- Publishes a member under the given path. -/
def memberActions (tree : Tree) (path : List String) (parent : String) (owner : Option Identity)
    (referrer id : Int) : List Action :=
  match tree.member? parent owner referrer id with
  | .error problem => [.refuse problem]
  | .ok (kind, item) => [.visit id, .publish ⟨id, ⟨path ++ [item.name], kind⟩, item⟩]

/-- The members that the numbers lead to: the kind and the name of each. -/
def memberNames (tree : Tree) (referrer : Int) (ids : List Int) : List (IdKind × String) :=
  ids.filterMap fun id =>
    (tree.member? "" none referrer id).toOption.map fun member => (member.1, member.2.name)

def traitPlan (tree : Tree) (id : Int) (deprecated : Bool) (path : List String) (name : String)
    (decl : TraitDecl) : Plan :=
  let trait : Identity := ⟨path ++ [name], .trait⟩
  let parent := Identity.pathText trait.path
  { actions := .visit id ::
      decl.items.flatMap (tree.memberActions trait.path parent (some trait) id) ++
      [.publish ⟨id, trait, {
        name := name
        deprecated := deprecated
        form := .traitDef {
          generics := decl.generics
          bounds := decl.bounds
          isUnsafe := decl.isUnsafe
          isAuto := decl.isAuto
          members := sortTexts ((tree.memberNames id decl.items).map Prod.snd) } }⟩] }

/-- The path under which an implementation's members are published. Blocks for different instances of
a generic type may define the same names, so the arguments of the instance become a segment. -/
def implPath (decl : ImplDecl) (type : Identity) : List String :=
  let arguments := decl.forType.toList.dropWhile (· ≠ '<')
  if decl.generics.isEmpty ∧ !arguments.isEmpty then type.path ++ [String.ofList arguments]
  else type.path

/-- The identity of the implementation of a trait for a type. -/
def implIdentity (decl : ImplDecl) (type : Identity) (trait : String) : Identity :=
  let bang := if decl.negative then "!" else ""
  ⟨implPath decl type ++ [Identity.implMark ++ bang ++ trait ++ "]"], .impl⟩

/-- The implementation of a trait. -/
def traitImplItem (tree : Tree) (id : Int) (deprecated : Bool) (decl : ImplDecl) (trait : String) :
    Item :=
  let members := tree.memberNames id decl.items
  { name := trait
    deprecated := deprecated
    form := .traitImpl {
      trait := trait
      forType := decl.forType
      generics := decl.generics
      isUnsafe := decl.isUnsafe
      negative := decl.negative
      members := sortTexts ((members.filter (·.1 ≠ .method)).map Prod.snd)
      methods := sortTexts ((members.filter (·.1 = .method)).map Prod.snd) } }

/-- Members of a type's own block belong to no owner; those of a trait's implementation belong to the
implementation, which is published after them. -/
def implPlan (tree : Tree) (id : Int) (deprecated : Bool) (type : Identity) (decl : ImplDecl) :
    Plan :=
  if decl.synthetic ∨ decl.blanket then
    { actions := [.visit id, .skip (.impl decl.synthetic id type)] }
  else
    match decl.trait with
    | none =>
      let parent := Identity.pathText type.path
      { actions := .visit id ::
          decl.items.flatMap (tree.memberActions (implPath decl type) parent none id) }
    | some trait =>
      let impl := implIdentity decl type trait
      { actions := .visit id ::
          decl.items.flatMap (tree.memberActions impl.path impl.display (some impl) id) ++
          [.publish ⟨id, impl, tree.traitImplItem id deprecated decl trait⟩] }

/-! ## Items of modules -/

def listedTasks (path : List String) (referrer : Int) (ids : List Int) : List Task :=
  ids.map fun id => ⟨id, path, .listed referrer⟩

/-- The name that a re-export gives, unless it is empty, or else the declared name. -/
def chosenName (givenName : Option String) (declared : String) : String :=
  match givenName with
  | some name => if name = "" then declared else name
  | none => declared

def publishPlan (id : Int) (path : List String) (kind : IdKind) (item : Item) : Plan where
  actions := [.visit id, .publish ⟨id, ⟨path ++ [item.name], kind⟩, item⟩]

/-- Where a re-export leads. -/
def reexportPlan (id : Int) (path : List String) (decl : ReexportDecl) : Plan :=
  match decl.target with
  | none => { actions := [.visit id, .skip (.outside decl.source)] }
  | some target =>
    let via := if decl.glob then .spliced decl.source else .named id decl.name decl.source
    { actions := [.visit id], next := [⟨target, path, via⟩] }

/-- The plan for an entry in a module, under the name of a re-export if one led to it. -/
def itemPlan (tree : Tree) (id : Int) (entry : Entry) (path : List String)
    (givenName : Option String) : Plan :=
  match entry.declaration with
  | .module decl =>
    { actions := [.visit id]
      next := listedTasks (path ++ [chosenName givenName decl.name]) id decl.items }
  | .function decl =>
    publishPlan id path .function {
      name := chosenName givenName decl.name, deprecated := entry.deprecated
      form := .function decl.callable }
  | .method decl =>
    publishPlan id path .method
      (methodItem entry.deprecated (chosenName givenName decl.name) (Identity.pathText path) none decl)
  | .struct decl => tree.structPlan id entry.deprecated path (chosenName givenName decl.name) decl
  | .union decl => tree.unionPlan id entry.deprecated path (chosenName givenName decl.name) decl
  | .enum decl => tree.enumPlan id entry.deprecated path (chosenName givenName decl.name) decl
  | .typedef decl =>
    publishPlan id path .typedef {
      name := chosenName givenName decl.name, deprecated := entry.deprecated
      form := .type { typeKind := .typedef, generics := decl.generics, aliased := some decl.type } }
  | .trait decl => tree.traitPlan id entry.deprecated path (chosenName givenName decl.name) decl
  | .constant decl =>
    publishPlan id path .constant {
      name := chosenName givenName decl.name, deprecated := entry.deprecated
      form := .constant decl.type decl.value false false }
  | .static decl =>
    publishPlan id path .static {
      name := chosenName givenName decl.name, deprecated := entry.deprecated
      form := .constant decl.type decl.value true decl.mutable }
  | .reexport decl => reexportPlan id path decl
  | .inert decl => { actions := [.visit id, .skip (.inert decl.kind id decl.name)] }
  | other => { actions := [.visit id, .refuse (.misplaced id other.kind .inModule)] }

/-- The plan for a task. -/
def plan (tree : Tree) (task : Task) : Plan :=
  match task.via, tree.entry? task.id with
  | .listed referrer, none => { actions := [.refuse (.dangling task.id referrer)] }
  | .listed _, some entry =>
    match entry.declaration with
    | .impl _ => { actions := [] }
    | _ => tree.itemPlan task.id entry task.path none
  | .named _ _ source, none => { actions := [.skip (.outside source)] }
  | .named importer name _, some entry =>
    match entry.declaration with
    | .impl _ =>
      { actions := [.refuse (.misplaced task.id entry.declaration.kind (.reexportedBy importer))] }
    | _ => tree.itemPlan task.id entry task.path (some name)
  | .spliced source, none => { actions := [.skip (.outside source)] }
  | .spliced source, some entry =>
    match entry.declaration with
    | .module decl =>
      { actions := [.visit task.id], next := listedTasks task.path task.id decl.items }
    | _ => { actions := [.skip (.globOfItem source)] }
  | .attached _ referrer, none => { actions := [.refuse (.dangling task.id referrer)] }
  | .attached type referrer, some entry =>
    match entry.declaration with
    | .impl decl => tree.implPlan task.id entry.deprecated type decl
    | other => { actions := [.refuse (.misplaced task.id other.kind (.implOf referrer))] }

end ApiDelta.Tree
