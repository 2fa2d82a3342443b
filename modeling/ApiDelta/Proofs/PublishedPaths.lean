import ApiDelta.Proofs.TypedSnapshots

/-!
The paths of published items. Whatever a plan publishes stands under a path with a last segment. So every
identity of a snapshot has a form for people, and so has every change between two snapshots.
-/
namespace ApiDelta

namespace Tree

/-- All that the actions publish stands under paths that are not empty. -/
def Named (actions : List Action) : Prop :=
  ∀ publication, .publish publication ∈ actions → publication.id.path ≠ []

theorem named_plan {tree : Tree} {task : Task} (accepted : Accepted (tree.plan task).actions) :
    Named (tree.plan task).actions :=
  fun publication member => (wellTyped_plan accepted publication member).path_ne_nil

end Tree

/-- Every identity in the snapshot of a tree has a form for people. -/
theorem Snapshot.isShowable_of_translated {tree : Tree} {s : Snapshot}
    (translated : Snapshot.ofTree? tree = .ok s) {id : Identity} (member : id ∈ s.ids) :
    id.isShowable = true := by
  obtain ⟨answered, final, run, rfl⟩ := Tree.ofTree?_eq_ok_iff.mp translated
  obtain ⟨entry, held, rfl⟩ := List.mem_map.mp member
  obtain ⟨publication, emitted, rfl⟩ := run.mem_entries.mp held
  obtain ⟨task, turn, published⟩ := List.mem_flatMap.mp emitted
  have path := Tree.named_plan (run.accepted turn) publication (Tree.mem_publications.mp published)
  simp [Identity.isShowable, Tree.Publication.entry, path]

/-- So every change between the snapshots of two trees can be shown. -/
theorem Diagnosis.isShowable_between {old new : Tree} {s s' : Snapshot}
    (translated : Snapshot.ofTree? old = .ok s) (translated' : Snapshot.ofTree? new = .ok s') :
    (Diagnosis.between s s').isShowable = true := by
  have shown {tree : Tree} {s : Snapshot} {id : Identity} {item : Item}
      (translated : Snapshot.ofTree? tree = .ok s) (held : s.get? id = some item) :
      id.isShowable = true :=
    Snapshot.isShowable_of_translated translated
      (List.mem_map_of_mem (Snapshot.get?_eq_some_iff.mp held))
  refine List.all_eq_true.mpr fun change member => ?_
  cases mem_between.mp member with
  | removed held => exact shown translated held
  | added held => exact shown translated' held
  | deprecated before => exact shown translated before
  | modified before => exact shown translated before

end ApiDelta
