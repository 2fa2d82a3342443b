import ApiDelta.Proofs.LiveReferences
import ApiDelta.Proofs.OutsideTargets

/-!
References that lead nowhere. A list that an entry reachable from the root holds must not have a number
without an entry; a tree with one is refused, and what is refused for it is such a number, named together
with the entry that lists it. A re-export may aim at something outside the crate. It is passed over, and
the tree in which it has no target at all is translated or refused alike.
-/
namespace ApiDelta.Tree

section Trees

variable {tree : Tree} {reference : Reference} {problem : Problem}

/-- A live list has no number without an entry unless the tree is refused. -/
theorem refused_of_dangling (live : tree.Live reference) (listed : reference.role.IsListed)
    (absent : tree.entry? reference.id = none) : ∃ problem, Snapshot.ofTree? tree = .error problem := by
  have nowhere := declaration?_of_absent absent
  cases translated : Snapshot.ofTree? tree with
  | error problem => exact ⟨problem, rfl⟩
  | ok s =>
    rcases fits_or_met_of_translated translated live with fits | ⟨_, root | placed⟩
    · exact absurd listed ((fits_of_absent nowhere).mp fits)
    · rw [root, declaration?_rootId] at nowhere
      cases nowhere
    · obtain ⟨_, _, _, declaration, declared, _⟩ := placed
      rw [nowhere] at declared
      cases declared

/-- Only a live list with a number that has no entry is refused as dangling. -/
theorem dangling_of_refused (refused : Snapshot.ofTree? tree = .error problem)
    (code : problem.code = .danglingReference) :
    ∃ reference, tree.Live reference ∧ reference.role.IsListed ∧
      tree.entry? reference.id = none ∧ problem = .dangling reference.id reference.referrer := by
  rcases blamed_of_refused refused with ⟨identity, rfl⟩ | ⟨reference, live, unfit, rfl⟩
  · cases code
  · cases declared : tree.declaration? reference.id with
    | some declaration =>
      rw [fault_of_declared declared] at code
      cases code
    | none =>
      rw [fits_of_absent declared, not_not] at unfit
      exact ⟨reference, live, unfit, Option.map_eq_none_iff.mp declared, fault_of_absent declared⟩

end Trees

/-- **Dangling references are found exactly.** A tree is refused if a list that the root leads to has a
number without an entry. If it is refused with the code for this, then there is such a number, which is
named together with the entry that lists it. And targets that are not there make no difference. -/
theorem dangling_references_are_found (tree : Tree) :
    (∀ reference, tree.Live reference → reference.role.IsListed →
      tree.entry? reference.id = none → ∃ problem, Snapshot.ofTree? tree = .error problem) ∧
    (∀ problem, Snapshot.ofTree? tree = .error problem → problem.code = .danglingReference →
      ∃ reference, tree.Live reference ∧ reference.role.IsListed ∧
        tree.entry? reference.id = none ∧ problem.itemId = some reference.id ∧
        problem.message =
          s!"item {reference.id} referenced by item {reference.referrer} is missing from the index") ∧
    Snapshot.ofTree? tree.withoutOutside = Snapshot.ofTree? tree := by
  refine ⟨?_, ?_, ofTree?_withoutOutside tree⟩
  · intro reference live listed absent
    exact refused_of_dangling live listed absent
  · intro problem refused code
    obtain ⟨reference, live, listed, absent, rfl⟩ := dangling_of_refused refused code
    exact ⟨reference, live, listed, absent, rfl, rfl⟩

/-- A module, listed by the root, that re-exports something outside and lists a number without an
entry. -/
def lostItemTree : Tree where
  index := [
    (0, { declaration := .module { name := "demo", items := [1] } }),
    (1, { declaration := .module { name := "m", items := [2, 7] } }),
    (2, { declaration := .reexport { name := "Map", source := "std::Map", target := some 9 } })]
  root := { name := "demo", items := [1] }
  rooted := rfl

/-- The lost item is found, with the module that lists it, and not the target outside. -/
theorem dangling_references_are_found_lost_item :
    (∃ problem, Snapshot.ofTree? lostItemTree = .error problem) ∧
      (∃ problem, Snapshot.ofTree? lostItemTree = .error problem ∧
        ∃ reference : Reference, lostItemTree.entry? reference.id = none ∧
          problem.itemId = some reference.id) ∧
      Snapshot.ofTree? lostItemTree.withoutOutside = Snapshot.ofTree? lostItemTree := by
  have reachable : lostItemTree.Reachable 1 :=
    .single (.item rfl (List.mem_singleton_self _) nofun)
  have live : lostItemTree.Live ⟨1, .item, 7⟩ := ⟨reachable, by decide⟩
  obtain ⟨complete, exact, outside⟩ := dangling_references_are_found lostItemTree
  obtain ⟨problem, refused⟩ := complete ⟨1, .item, 7⟩ live trivial rfl
  have stopped : ∃ stop, lostItemTree.walk .start lostItemTree.rootTasks = .error stop ∧
      stop.problem = .dangling 7 1 :=
    ⟨_, (walk_answer (by decide) rfl).trans ((walk_answer (by decide) rfl).trans
      ((walk_answer (by decide) rfl).trans (walk_stop (by decide) rfl))), rfl⟩
  have told := ofTree?_eq_error_iff.mpr stopped
  obtain ⟨reference, _, _, absent, itemId, _⟩ := exact _ told rfl
  exact ⟨⟨problem, refused⟩, ⟨_, told, reference, absent, itemId⟩, outside⟩

end ApiDelta.Tree
