import ApiDelta.Item.Schema

/-!
Changes between two snapshots. An item is removed or added, or it is in both and was modified or has
become deprecated. Removals break callers and additions do not; a modification says for itself whether
it does, and in which attributes the two items differ.
-/
namespace ApiDelta

inductive Change
  | removed (id : Identity) (item : Item)
  | modified (id : Identity) (old new : Item) (breaking : Bool) (changedFields : List String)
  | deprecated (id : Identity) (item : Item)
  | added (id : Identity) (item : Item)
  deriving DecidableEq, Repr

inductive ChangeKind
  | removed
  | modified
  | deprecated
  | added
  deriving DecidableEq, Repr

namespace ChangeKind

def label : ChangeKind → String
  | .removed => "removed"
  | .modified => "modified"
  | .deprecated => "deprecated"
  | .added => "added"

/-- Removals come first and additions last. -/
def rank : ChangeKind → Nat
  | .removed => 0
  | .modified => 1
  | .deprecated => 2
  | .added => 3

def all : List ChangeKind :=
  [.removed, .modified, .deprecated, .added]

/-- The sign that a report puts before a change of this kind. -/
def mark : ChangeKind → String
  | .removed => "-"
  | .modified => "≠"
  | .deprecated => "⚠"
  | .added => "+"

end ChangeKind

namespace Change

def kind : Change → ChangeKind
  | .removed .. => .removed
  | .modified .. => .modified
  | .deprecated .. => .deprecated
  | .added .. => .added

def id : Change → Identity
  | .removed id _ => id
  | .modified id .. => id
  | .deprecated id _ => id
  | .added id _ => id

def breaking : Change → Bool
  | .removed .. => true
  | .modified _ _ _ breaking _ => breaking
  | .deprecated .. => false
  | .added .. => false

/-- The order of changes in a report: by rank, then by identity. -/
def le (a b : Change) : Bool :=
  decide (a.kind.rank < b.kind.rank) || (a.kind.rank == b.kind.rank && a.id.le b.id)

/-- One line about the change. -/
def line (change : Change) : String :=
  change.kind.mark ++ " " ++ change.id.display

open Schema

/-- The keys of a change, all fields of its items among them. -/
def fields : Change → Fields
  | .removed id item =>
    [("change", .text "removed"), ("item_id", id.toJson), ("item", item.toJson)]
  | .modified id old new breaking changedFields =>
    [("change", .text "modified"), ("item_id", id.toJson), ("old", old.toJson),
      ("new", new.toJson), ("breaking", .bool breaking),
      ("changed_fields", Json.ofTexts changedFields)]
  | .deprecated id item =>
    [("change", .text "deprecated"), ("item_id", id.toJson), ("item", item.toJson)]
  | .added id item =>
    [("change", .text "added"), ("item_id", id.toJson), ("item", item.toJson)]

def toJson (change : Change) : Json :=
  .object change.fields

/-- A change of one item, made by the given constructor. -/
def checkSingle (make : Identity → Item → Change) : Fields → Checked Change :=
  closed ["change", "item_id", "item"] fun fields =>
    make <$> required fields "item_id" Identity.check <*> required fields "item" Item.check

def checkModified : Fields → Checked Change :=
  closed ["change", "item_id", "old", "new", "breaking", "changed_fields"] fun fields =>
    modified <$> required fields "item_id" Identity.check
      <*> required fields "old" Item.check
      <*> required fields "new" Item.check
      <*> required fields "breaking" boolean
      <*> optional fields "changed_fields" [] (tupleOf text)

def check : Json → Checked Change :=
  choice "change" [("added", checkSingle added), ("removed", checkSingle removed),
    ("modified", checkModified), ("deprecated", checkSingle deprecated)]

/-- What faults of a change are reported to concern. -/
def wanted : String :=
  "tagged-union[Added,Removed,Modified,Deprecated]"

end Change

end ApiDelta
