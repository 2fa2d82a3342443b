import ApiDelta.Files.Name

/-!
Names of files, and places. A name is a list of segments from some anchor: the working directory, or
the root of the file system, which may also be written with two slashes. Empty segments and single
points say nothing and are dropped; double points are kept, because what they lead to depends on the
files. A place is where a name without double points leads from the root.

What a name leads to is found segment by segment, and each segment is looked for by the name up to it,
from the anchor on. The first such name that no file can have stops the search.
-/
namespace ApiDelta.Files

inductive Anchor
  | working
  | root
  | doubleRoot
  deriving DecidableEq, Repr

structure Path where
  anchor : Anchor
  segments : List String
  deriving DecidableEq, Repr

/-- A place, by the segments that lead to it from the root. -/
structure Place where
  segments : List String
  deriving DecidableEq, Repr

namespace Place

def root : Place :=
  ⟨[]⟩

def inside (place : Place) (segment : String) : Place :=
  ⟨place.segments ++ [segment]⟩

/-- The directory that a place is in. The root is in itself. -/
def above (place : Place) : Place :=
  ⟨place.segments.dropLast⟩

/-- One segment further; double points lead back. -/
def step (place : Place) (segment : String) : Place :=
  if segment = ".." then place.above else place.inside segment

/-- The octets that lead to a place. -/
def octets (place : Place) : List (List UInt8) :=
  place.segments.map Files.octets

/-- The full name of a place. -/
def path (place : Place) : Path :=
  ⟨.root, place.segments⟩

/-- Whether one place is another or leads to it. -/
def leadsTo (place other : Place) : Bool :=
  place.octets.isPrefixOf other.octets

end Place

namespace Path

def separate (text : String) : List String :=
  (text.toList.splitOn '/').map String.ofList

def ofText (text : String) : Path where
  anchor :=
    match text.toList with
    | '/' :: '/' :: '/' :: _ => .root
    | '/' :: '/' :: _ => .doubleRoot
    | '/' :: _ => .root
    | _ => .working
  segments := (separate text).filter fun segment => segment ≠ "" && segment ≠ "."

def text (p : Path) : String :=
  let joined := String.intercalate "/" p.segments
  match p.anchor with
  | .working => if p.segments.isEmpty then "." else joined
  | .root => "/" ++ joined
  | .doubleRoot => "//" ++ joined

/-- The place that a name starts from. -/
def start (working : Place) (p : Path) : Place :=
  match p.anchor with
  | .working => working
  | _ => .root

/-- The place that a name leads to, as far as that can be told from the name. -/
def resolved (working : Place) (p : Path) : Place :=
  p.segments.foldl Place.step (p.start working)

/-- The places that a name leads through, the last of them its own. -/
def places (working : Place) (p : Path) : List Place :=
  (List.range p.segments.length).map fun count =>
    resolved working { p with segments := p.segments.take (count + 1) }

/-- What is wrong with a name, if no file can have it. -/
def fault? (p : Path) : Option NameFault :=
  nameFault? p.text

/-- One segment further, as far as the name tells. Double points take the last segment back, unless they
lead out of the working directory; there is nothing above the root. -/
def step (p : Path) (segment : String) : Path :=
  let leadsOut := p.anchor = .working ∧ p.segments.getLast?.all (· = "..")
  if segment = ".." ∧ ¬leadsOut then { p with segments := p.segments.dropLast }
  else { p with segments := p.segments ++ [segment] }

/-- The first fault among the names that a name is followed by, from one that has been reached. -/
def faultFrom? (here : Path) : List String → Option NameFault
  | [] => none
  | segment :: rest =>
    match (here.step segment).fault? with
    | some fault => some fault
    | none => faultFrom? (here.step segment) rest

/-- What stops the search for what a name leads to. -/
def searchFault? (p : Path) : Option NameFault :=
  faultFrom? ⟨if p.anchor = .working then .working else .root, []⟩ p.segments

end Path

def Place.text (place : Place) : String :=
  place.path.text

end ApiDelta.Files
