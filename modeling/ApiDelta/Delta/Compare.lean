import ApiDelta.Delta.Diagnosis
import ApiDelta.Snapshot.Basic

/-!
Comparing two snapshots. An identity on one side alone is a removal or an addition, unless its item is
a member: members come and go with the member list of their owner, which is an attribute of the owner.
An identity on both sides is compared attribute by attribute, and its deprecation apart from that.

Whether a modification breaks callers depends on the class and on the set of changed attributes:

* a method that differs only in having a body breaks callers if it has lost its body;
* a type that differs only in hiding fields breaks callers if it now hides some;
* a constant whose value alone has changed breaks nobody;
* the implementation of a trait that differs only in which methods it overrides breaks nobody;
* any other modification breaks callers.
-/
namespace ApiDelta

namespace Item

/-- The rule for two different items of one class that differ in the given attributes. -/
def breaks (new : Item) (changed : List String) : Bool :=
  match new.form with
  | .method _ _ hasBody => if changed = ["has_body"] then !hasBody else true
  | .type form => if changed = ["fields_stripped"] then form.fieldsStripped else true
  | .constant .. => changed.any (· ≠ "value")
  | .traitImpl _ => changed.any (· ≠ "methods")
  | _ => true

/-- Whether the step from one version of an item to another breaks callers. -/
def isBreakingModification (old new : Item) : Bool :=
  if old.itemClass ≠ new.itemClass then true
  else
    let changed := changedAttributes old new
    if changed.isEmpty then false else breaks new changed

/-- The changes of an item that is in both snapshots. -/
def changesTo (id : Identity) (old new : Item) : List Change :=
  if old = new then []
  else
    let notice := if new.deprecated ∧ !old.deprecated then [Change.deprecated id new] else []
    let changed := changedAttributes old new
    let modification :=
      if old.itemClass ≠ new.itemClass then [Change.modified id old new true ["kind"]]
      else if changed.isEmpty then []
      else [Change.modified id old new (breaks new changed) changed]
    notice ++ modification

end Item

namespace Diagnosis

/-- The entries of one snapshot that are missing from the other and are not members. -/
def unmatched (s other : Snapshot) : List SnapshotEntry :=
  s.entries.filter fun entry => !other.contains entry.1 && !entry.2.isMember

/-- All changes between two snapshots, in the order in which they are found. -/
def found (old new : Snapshot) : List Change :=
  (unmatched old new).map (fun entry => Change.removed entry.1 entry.2) ++
    (unmatched new old).map (fun entry => Change.added entry.1 entry.2) ++
    old.entries.flatMap fun entry =>
      match new.get? entry.1 with
      | some item => Item.changesTo entry.1 entry.2 item
      | none => []

/-- The diagnosis of the step from one snapshot to another. -/
def between (old new : Snapshot) : Diagnosis :=
  ofChanges (found old new)

end Diagnosis

end ApiDelta
