import ApiDelta.Delta.Change

/-!
A diagnosis: all changes between two snapshots, in report order. Sorting is stable, so changes that the
order does not separate stay as they were found.
-/
namespace ApiDelta

structure Diagnosis where
  changes : List Change
  deriving DecidableEq, Repr

/-- Counts by kind of change, and of those that break callers. -/
structure Summary where
  removed : Nat
  modified : Nat
  deprecated : Nat
  added : Nat
  breaking : Nat
  deriving DecidableEq, Repr

namespace Diagnosis

/-- The diagnosis of the given changes, in report order. -/
def ofChanges (changes : List Change) : Diagnosis :=
  ⟨changes.mergeSort Change.le⟩

def isBreaking (d : Diagnosis) : Bool :=
  d.changes.any Change.breaking

def isEmpty (d : Diagnosis) : Bool :=
  d.changes.isEmpty

def size (d : Diagnosis) : Nat :=
  d.changes.length

def count (d : Diagnosis) (kind : ChangeKind) : Nat :=
  d.changes.countP fun change => change.kind = kind

def containsAdditions (d : Diagnosis) : Bool :=
  d.changes.any fun change => change.kind = .added

def summary (d : Diagnosis) : Summary where
  removed := d.count .removed
  modified := d.count .modified
  deprecated := d.count .deprecated
  added := d.count .added
  breaking := d.changes.countP Change.breaking

/-- One line for each change. -/
def lines (d : Diagnosis) : List String :=
  d.changes.map Change.line

/-- Whether every change concerns an identity that can be shown. -/
def isShowable (d : Diagnosis) : Bool :=
  d.changes.all fun change => change.id.isShowable

/-- One line for each change, if every change can be shown. -/
def lines? (d : Diagnosis) : Option (List String) :=
  if d.isShowable then some d.lines else none

/-- Checks a list of changes kept as JSON, in their order. -/
def check : Json → Schema.Checked Diagnosis :=
  Schema.record "Diagnosis" <| Schema.closed ["changes"] fun fields =>
    mk <$> Schema.optional fields "changes" [] (Schema.tupleOf Change.check)

def toJson (d : Diagnosis) : Json :=
  .object [("changes", .array (d.changes.map Change.toJson))]

end Diagnosis

namespace Summary

def toFields (s : Summary) : List (String × Nat) :=
  [("removed", s.removed), ("modified", s.modified), ("deprecated", s.deprecated),
    ("added", s.added), ("breaking", s.breaking)]

def toJson (s : Summary) : Json :=
  .object (s.toFields.map fun (name, count) => (name, .int count))

end Summary

end ApiDelta
