import ApiDelta.Tree.Problem
import ApiDelta.Tree.Schema
import ApiDelta.Text.Digit

/-!
Extracted trees. Reading one from JSON goes in three steps, each of which can refuse it: every entry
must name a known kind, the whole must fit the schema, and entry 0 must be the root module. The first
step looks at the entries in the order of the text and goes before the schema, so that a tree from a
newer extractor is refused for the kind it introduces and not for the shape of its entries.

A tree that has been read has its root: the type says so.
-/
namespace ApiDelta.Tree

/-- What the schema asks of a tree, before its root has been looked at. -/
structure Document where
  formatVersion : Int := 1
  crateVersion : Option String := none
  root : Int := rootId
  index : Index
  deriving DecidableEq, Repr

end Tree

/-- A tree with its root module at entry 0. -/
structure Tree where
  formatVersion : Int := 1
  crateVersion : Option String := none
  index : Tree.Index
  root : Tree.ModuleDecl
  rooted : (index.lookup Tree.rootId).map Tree.Entry.declaration = some (.module root)
  deriving DecidableEq, Repr

namespace Tree

def entry? (tree : Tree) (id : Int) : Option Entry :=
  tree.index.lookup id

def crateName (tree : Tree) : String :=
  tree.root.name

/-! ## Kinds -/

/-- Why a value is refused as a tree. The key of an entry may consist of digits that denote no
number, which is a fault of another sort than those of the tree itself. -/
inductive Refusal
  | problem (problem : Problem)
  | unreadableKey (key : String)
  deriving DecidableEq, Repr

/-- What is said of a text of digits that denotes no number. A long text is cut. -/
def unreadableKeyMessage (key : String) : String :=
  s!"invalid literal for int() with base 10: {String.ofList ((Text.quoted key).toList.take 200)}"

/-- The number that a problem gives for the entry under a key: none unless the key is made of
digits. -/
def numberOfKey (key : String) : Except Refusal (Option Int) :=
  if key ≠ "" ∧ key.toList.all Text.isDigit then
    match Text.decimalNumber? key.toList with
    | some n => .ok (some n)
    | none => .error (.unreadableKey key)
  else .ok none

/-- Refuses an entry without a known kind. What is not an object is left to the schema. -/
def scanEntry (key : String) : Json → Except Refusal Unit
  | .object fields =>
    match numberOfKey key with
    | .error refusal => .error refusal
    | .ok id =>
      match fields.lookup "kind" with
      | some (.text kind) =>
        if Declaration.kinds.contains kind then .ok ()
        else .error (.problem (.kindUnknown key id (Text.quoted kind)))
      | _ => .error (.problem (.kindNotText key id))
  | _ => .ok ()

/-- Looks at the kinds of all entries, in order. -/
def scanEntries : List (String × Json) → Except Refusal Unit
  | [] => .ok ()
  | (key, value) :: rest =>
    match scanEntry key value with
    | .error refusal => .error refusal
    | .ok () => scanEntries rest

def scan (fields : Schema.Fields) : Except Refusal Unit :=
  match fields.lookup "index" with
  | some (.object entries) => scanEntries entries
  | _ => .ok ()

/-! ## Schema -/

open Schema

/-- Sets the entry under a number: the last entry under one number counts. -/
def putEntry (index : Index) (id : Int) (entry : Entry) : Index :=
  if index.any (·.1 == id) then
    index.map fun pair => if pair.1 == id then (id, entry) else pair
  else index ++ [(id, entry)]

def indexOf (pairs : List (Int × Entry)) : Index :=
  pairs.foldl (fun index pair => putEntry index pair.1 pair.2) []

/-- The step that leads to the entry under a key, in characters only. -/
def stepTo (key : String) : Step :=
  .key (Text.withReplacements key)

/-- The number that the text of a key denotes. -/
def checkKey (key : String) : Checked Int :=
  ((integer (.text key)).under (.key "[key]")).under (stepTo key)

def checkPairs : List (String × Json) → Checked (List (Int × Entry))
  | [] => .sound []
  | (key, value) :: rest =>
    (fun id entry pairs => (id, entry) :: pairs) <$> checkKey key
      <*> (Entry.check value).under (stepTo key) <*> checkPairs rest

def checkIndex : Json → Checked Index
  | .object entries => indexOf <$> checkPairs entries
  | _ => .fault .notDictionary

namespace Document

def check (fields : Fields) : Checked Document :=
  mk <$> optional fields "format_version" 1 integer
    <*> optional fields "crate_version" none textOrNull
    <*> optional fields "root" rootId integer
    <*> required fields "index" checkIndex

/-- The tree of a document whose root is as it should be. -/
def rooted (d : Document) : Except Problem Tree :=
  if d.root ≠ rootId then .error (.rootNumber d.root)
  else
    match found : d.index.lookup rootId with
    | none => .error (.rootMissing d.root)
    | some entry =>
      match shape : entry.declaration with
      | .module root => .ok {
          formatVersion := d.formatVersion
          crateVersion := d.crateVersion
          index := d.index
          root := root
          rooted := by simp [found, shape] }
      | other => .error (.rootNotModule d.root other.kind)

end Document

/-- The tree that a value describes. -/
def ofJson? : Json → Except Refusal Tree
  | .object fields =>
    match scan fields with
    | .error refusal => .error refusal
    | .ok () =>
      match Document.check fields with
      | .faulty faults => .error (.problem (.schema faults))
      | .sound document =>
        match document.rooted with
        | .error problem => .error (.problem problem)
        | .ok tree => .ok tree
  | _ => .error (.problem .notObject)

/-- A tree as JSON, its entries under decimal keys with every key of their records. -/
def toJson (tree : Tree) : Json :=
  .object [("format_version", .int tree.formatVersion),
    ("crate_version", Json.ofTextOption tree.crateVersion), ("root", .int rootId),
    ("index", .object (tree.index.map fun (id, entry) => (toString id, entry.toJson)))]

end Tree

end ApiDelta
