import ApiDelta.Delta.Compare
import ApiDelta.Notice
import ApiDelta.Report
import ApiDelta.Tree.Walk

/-!
From trees to answers. A tree is given as a value or as the name of a file. `diagnose` compares two
trees, `diff` also proposes a version and reports, `check` says whether one tree can be read and
flattened, and `history` follows a crate through a sequence of trees.
-/
namespace ApiDelta

/-- Where a tree comes from. -/
inductive Source
  | value (tree : Json)
  | file (path : Files.Path)

namespace Source

/-- The JSON value in a file. -/
def load (files : Files.Store) (path : Files.Path) : Told Json :=
  match path.fault? with
  | some fault => Told.fail (.unnameable fault)
  | none =>
    match files.read path with
    | .error trouble => Told.fail (.load path.text (.file trouble))
    | .ok octets =>
      match jsonOfOctets octets with
      | .error fault => Told.fail (.load path.text (.content fault))
      | .ok content => ⟨[.loaded path.text octets.length], .ok content⟩

def json (files : Files.Store) : Source → Told Json
  | .value tree => pure tree
  | .file path => load files path

/-- The tree that a source holds. -/
def tree (files : Files.Store) (source : Source) : Told Tree := do
  let content ← source.json files
  match Tree.ofJson? content with
  | .ok tree => pure tree
  | .error refusal => Told.fail (.ofRefusal refusal)

end Source

/-- The public items of a tree, with an account of what was passed over. -/
def Tree.snapshot (tree : Tree) : Told Snapshot :=
  match tree.walkAll with
  | .error stop => ⟨stop.skipped.reverse.map .skipped, .error (.malformed stop.problem)⟩
  | .ok state =>
    ⟨state.skipped.reverse.map .skipped ++ [.flattened state.published.size tree.crateName
      state.visited.length tree.index.length], .ok state.published⟩

/-- The public items of the tree that a source holds. -/
def Source.snapshot (files : Files.Store) (source : Source) : Told Snapshot :=
  (source.tree files).bind Tree.snapshot

namespace Release

/-- Compares two snapshots. -/
def compare (old new : Snapshot) : Told Diagnosis :=
  let d := Diagnosis.between old new
  ⟨[.compared old.size new.size d.summary], .ok d⟩

/-- The diagnosis of the step from one tree to another. -/
def diagnose (files : Files.Store) (old new : Source) : Told Diagnosis := do
  let oldSnapshot ← old.snapshot files
  let newSnapshot ← new.snapshot files
  compare oldSnapshot newSnapshot

/-- The version to start from: given, written, or the one that the old tree records. -/
inductive Current
  | given (version : Version)
  | written (text : String)
  | recorded
  deriving DecidableEq, Repr

def readVersion (text : String) : Except Failure Version :=
  match Version.parse? text with
  | some version => .ok version
  | none => .error (.invalidVersion text)

def Current.resolve (old : Tree) : Current → Except Failure Version
  | .given version => .ok version
  | .written text => readVersion text
  | .recorded =>
    match old.crateVersion with
    | none => .error .noVersion
    | some text => readVersion text

/-- Everything that a comparison of two trees yields. -/
structure Comparison where
  old : Snapshot
  new : Snapshot
  diagnosis : Diagnosis
  proposed : Version
  report : Report

/-- The name of the crate: the new one, unless it is empty. -/
def crateName (old new : Tree) : String :=
  if new.crateName = "" then old.crateName else new.crateName

/-- Compares two trees and proposes the version that comes next. Both trees are read before the version
is looked at, and it is looked at before either tree is flattened. -/
def diff (files : Files.Store) (old new : Source) (current : Current) : Told Comparison := do
  let oldTree ← old.tree files
  let newTree ← new.tree files
  let version ← (⟨[], current.resolve oldTree⟩ : Told Version)
  let oldSnapshot ← oldTree.snapshot
  let newSnapshot ← newTree.snapshot
  let diagnosis ← compare oldSnapshot newSnapshot
  let proposed := version.next diagnosis
  let crate := crateName oldTree newTree
  Told.tellAll (version.dropped.map .dropped)
  Told.tell (.advised crate diagnosis.size version proposed)
  return ⟨oldSnapshot, newSnapshot, diagnosis, proposed, .of crate version diagnosis⟩

/-- A tree that passed a check. -/
structure Sound where
  crate : String
  crateVersion : Option String
  items : Nat
  deriving DecidableEq, Repr

/-- What a check found wrong: a code, a message, the entry at fault, and the violations behind a fault
of the schema. -/
structure Issue where
  code : Tree.ProblemCode
  message : String
  itemId : Option Int
  faults : List Schema.Fault
  deriving DecidableEq, Repr

/-- The issue that a failure is reported as. Only failures to load and malformed trees are. -/
def issue? : Failure → Option Issue
  | .load path fault => some ⟨fault.code, (Failure.load path fault).text, none, []⟩
  | .malformed problem =>
    some ⟨problem.code, problem.message, problem.itemId, problem.faults?.getD []⟩
  | _ => none

/-- Whether a tree can be read and flattened. -/
def check (files : Files.Store) (source : Source) : Told (Except Issue Sound) :=
  let checked : Told Sound := do
    let tree ← source.tree files
    let snapshot ← tree.snapshot
    return ⟨tree.crateName, tree.crateVersion, snapshot.size⟩
  match checked.outcome with
  | .ok sound => ⟨checked.notices, .ok (.ok sound)⟩
  | .error failure =>
    match issue? failure with
    | some issue => ⟨checked.notices, .ok (.error issue)⟩
    | none => ⟨checked.notices, .error failure⟩

/-! ## Histories -/

/-- What one tree of a history adds: a failure, a first snapshot, or a step from the one before. -/
inductive Step
  | failed (failure : Failure)
  | first (items : Nat)
  | compared (items : Nat) (diagnosis : Diagnosis)

/-- Follows a crate through its trees, from a version and the latest snapshot so far. A tree that fails
leaves both as they are. -/
def followTrees (files : Files.Store) (version : Version) (latest : Option Snapshot) :
    List Source → List (Step × Version)
  | [] => []
  | source :: rest =>
    match (source.snapshot files).outcome with
    | .error failure => (.failed failure, version) :: followTrees files version latest rest
    | .ok snapshot =>
      match latest with
      | none => (.first snapshot.size, version) :: followTrees files version (some snapshot) rest
      | some old =>
        let diagnosis := Diagnosis.between old snapshot
        let next := version.next diagnosis
        (.compared snapshot.size diagnosis, next) :: followTrees files next (some snapshot) rest

def history (files : Files.Store) (version : Version) (sources : List Source) :
    List (Step × Version) :=
  followTrees files version none sources

end Release

end ApiDelta
