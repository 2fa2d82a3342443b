import ApiDelta.Schema.Record
import ApiDelta.Schema.Scalar

/-!
The identity of a public item: the path that leads to it, without the crate's own name, and a kind that
separates items of one path. Identities are ordered by path, segment by segment and by code point with
a shorter path before its extensions, and then by the name of the kind.
-/
namespace ApiDelta

inductive IdKind
  | struct
  | union
  | enum
  | typedef
  | structField
  | function
  | method
  | trait
  | impl
  | assocType
  | assocConst
  | constant
  | static
  deriving DecidableEq, Repr

namespace IdKind

def label : IdKind → String
  | .struct => "struct"
  | .union => "union"
  | .enum => "enum"
  | .typedef => "typedef"
  | .structField => "struct field"
  | .function => "function"
  | .method => "method"
  | .trait => "trait"
  | .impl => "impl"
  | .assocType => "associated type"
  | .assocConst => "associated constant"
  | .constant => "constant"
  | .static => "static"

def all : List IdKind :=
  [.struct, .union, .enum, .typedef, .structField, .function, .method, .trait, .impl, .assocType,
    .assocConst, .constant, .static]

def table : List (String × IdKind) :=
  all.map fun kind => (kind.label, kind)

def ofLabel? (label : String) : Option IdKind :=
  table.lookup label

end IdKind

structure Identity where
  path : List String
  kind : IdKind
  deriving DecidableEq, Repr

namespace Identity

/-- The identity of something inside, one segment further down. -/
def child (id : Identity) (segment : String) (kind : IdKind) : Identity :=
  ⟨id.path ++ [segment], kind⟩

/-- The last segment. -/
def name? (id : Identity) : Option String :=
  id.path.getLast?

def pathText (path : List String) : String :=
  String.intercalate "::" path

/-- How the last segment of the identity of a trait implementation begins. -/
def implMark : String := "[impl "

/-- The identity for people. The implementation of a trait, whose last segment is in brackets, reads
as the owner followed by the segment without its brackets. -/
def display (id : Identity) : String :=
  let general := pathText id.path ++ " (" ++ id.kind.label ++ ")"
  match id.kind, id.path.getLast? with
  | .impl, some last =>
    if implMark.toList.isPrefixOf last.toList then
      pathText id.path.dropLast ++ ": " ++ String.ofList (last.toList.drop 1).dropLast
    else general
  | _, _ => general

/-- Whether there is a form for people: an implementation needs a segment to be named by. -/
def isShowable (id : Identity) : Bool :=
  id.kind ≠ .impl || !id.path.isEmpty

/-- The order of identities. -/
def le (a b : Identity) : Bool :=
  decide (a.path < b.path) || (a.path == b.path && decide (a.kind.label ≤ b.kind.label))

open Schema

def check : Json → Checked Identity :=
  record "ItemId" <| closed ["path", "kind"] fun fields =>
    mk <$> required fields "path" (tupleOf text)
      <*> required fields "kind" (member IdKind.table)

def toJson (id : Identity) : Json :=
  .object [("path", Json.ofTexts id.path), ("kind", .text id.kind.label)]

end Identity

end ApiDelta
