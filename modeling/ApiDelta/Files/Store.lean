import ApiDelta.Files.Path

/-!
Files as a value: which places hold a file or a directory, and which of them is the working directory.
A name is followed segment by segment, so that what is wrong with it is what the first segment that
cannot be followed says.
-/
namespace ApiDelta.Files

inductive Node
  | file (content : List UInt8)
  | directory
  deriving DecidableEq, Repr

structure Store where
  working : Place
  nodes : List (Place × Node)
  deriving DecidableEq, Repr

inductive Trouble
  | notFound
  | exists
  | notDirectory
  | isDirectory
  | nameTooLong
  deriving DecidableEq, Repr

namespace Trouble

def number : Trouble → Nat
  | .notFound => 2
  | .exists => 17
  | .notDirectory => 20
  | .isDirectory => 21
  | .nameTooLong => 36

def message : Trouble → String
  | .notFound => "No such file or directory"
  | .exists => "File exists"
  | .notDirectory => "Not a directory"
  | .isDirectory => "Is a directory"
  | .nameTooLong => "File name too long"

end Trouble

/-- The greatest number of octets in a segment. -/
def longestSegment : Nat := 255

/-- The greatest number of octets in a name. -/
def longestName : Nat := 4095

def isTooLong (p : Path) : Bool :=
  (octets p.text).length > longestName

def isTooLongSegment (segment : String) : Bool :=
  (octets segment).length > longestSegment

namespace Store

/-- What is at a place. The working directory and those it is in are there without saying. -/
def node? (store : Store) (place : Place) : Option Node :=
  if place.leadsTo store.working then some .directory
  else (store.nodes.find? fun (other, _) => other.octets = place.octets).map (·.2)

/-- Follows the segments of a name from a place already reached. -/
def follow (store : Store) (here : Place) : List String → Except Trouble Place
  | [] => .ok here
  | segment :: rest =>
    if store.node? here ≠ some .directory then .error .notDirectory
    else if segment = ".." then store.follow here.above rest
    else if isTooLongSegment segment then .error .nameTooLong
    else if (store.node? (here.inside segment)).isNone then .error .notFound
    else store.follow (here.inside segment) rest

/-- The place that a name leads to. -/
def locate (store : Store) (p : Path) : Except Trouble Place :=
  if isTooLong p then .error .nameTooLong else store.follow (p.start store.working) p.segments

/-- The content of a file. -/
def read (store : Store) (p : Path) : Except Trouble (List UInt8) :=
  match store.locate p with
  | .error trouble => .error trouble
  | .ok place =>
    match store.node? place with
    | some (.file content) => .ok content
    | some .directory => .error .isDirectory
    | none => .error .notFound

def isFile (store : Store) (p : Path) : Bool :=
  (store.read p).isOk

/-- Sets what is at a place. -/
def put (store : Store) (place : Place) (node : Node) : Store :=
  { store with
    nodes := (place, node) :: store.nodes.filter fun (other, _) => other.octets ≠ place.octets }

/-- A failed attempt to write, the place it concerns, and the store by then: directories that have been
made on the way stay. -/
structure WriteTrouble where
  trouble : Trouble
  place : Place
  store : Store
  deriving DecidableEq, Repr

/-- Reaches the directory that a place is in. The place itself need not hold anything, but must have a
name that something can have. -/
def reach (store : Store) (place : Place) : Except Trouble Unit :=
  if isTooLong place.path then .error .nameTooLong
  else
    match store.follow .root place.above.segments with
    | .error trouble => .error trouble
    | .ok above =>
      if store.node? above ≠ some .directory then .error .notDirectory
      else if place.segments.getLast?.any isTooLongSegment then .error .nameTooLong
      else .ok ()

/-- Makes one directory inside another; there is nothing to do if it exists. -/
def makeDirectory (store : Store) (place : Place) : Except Trouble Store :=
  match store.reach place with
  | .error trouble => .error trouble
  | .ok () =>
    match store.node? place with
    | some .directory => .ok store
    | some (.file _) => .error .exists
    | none => .ok (store.put place .directory)

/-- Makes the directory whose segments are given from the last to the first, and those that lead to
it. The directories above are made only if one of them is missing. -/
def makeDirectories (store : Store) : List String → Except WriteTrouble Store
  | [] => .ok store
  | segment :: above =>
    let place : Place := ⟨(segment :: above).reverse⟩
    match store.makeDirectory place with
    | .ok store => .ok store
    | .error .notFound =>
      match store.makeDirectories above with
      | .error stopped => .error stopped
      | .ok store =>
        match store.makeDirectory place with
        | .ok store => .ok store
        | .error trouble => .error ⟨trouble, place, store⟩
    | .error trouble => .error ⟨trouble, place, store⟩

/-- Writes a file at a place, making the directories that lead to it. -/
def write (store : Store) (place : Place) (content : List UInt8) : Except WriteTrouble Store :=
  match store.makeDirectories place.above.segments.reverse with
  | .error stopped => .error stopped
  | .ok store =>
    match store.reach place with
    | .error trouble => .error ⟨trouble, place, store⟩
    | .ok () =>
      match store.node? place with
      | some .directory => .error ⟨.isDirectory, place, store⟩
      | _ => .ok (store.put place (.file content))

/-- The store with the given files, and the directories that lead to them. -/
def ofList (working : Place) (nodes : List (Place × Node)) : Store :=
  nodes.foldl (fun store (place, node) =>
    let directories := (List.range place.segments.length).map fun count =>
      (⟨place.segments.take count⟩ : Place)
    let store := directories.foldl (fun store directory =>
      if (store.node? directory).isSome then store else store.put directory .directory) store
    store.put place node) ⟨working, []⟩

end Store

end ApiDelta.Files
