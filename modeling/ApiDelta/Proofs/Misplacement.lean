import ApiDelta.Proofs.LiveReferences

/-!
Entries in positions that they cannot occupy. Parts are looked at wherever they are listed, so a field
list with anything but fields, a variant list with anything but variants, and a member that cannot be one
are always refused. Items of modules, blocks of implementations and targets of re-exports are looked at
unless they have been visited. So such an entry may stand where it cannot, if the walk comes to it there
only after it has visited it elsewhere, and the order of the lists decides whether the tree is refused.
-/
namespace ApiDelta.Tree

section Misplacement

variable {tree : Tree} {reference : Reference} {declaration : Declaration}

/-- What a reference leads to cannot play the role. -/
def Misplaces (tree : Tree) (reference : Reference) (declaration : Declaration) : Prop :=
  tree.declaration? reference.id = some declaration ∧ ¬reference.role.Admits declaration

theorem Misplaces.unfit (misplaced : tree.Misplaces reference declaration) : ¬tree.Fits reference :=
  mt (fits_of_declared misplaced.1).mp misplaced.2

/-- A task for a reference that does not fit is dropped if its entry has been visited, and breaks off the
walk otherwise. -/
theorem walk_of_unfit {task : Task} {state : WalkState} {pending : List Task}
    (stems : Stems reference task) (unfit : ¬tree.Fits reference) :
    tree.walk state (task :: pending) =
      if task.id ∈ state.visited then tree.walk state pending
      else .error ⟨tree.fault reference, state.skipped⟩ := by
  by_cases seen : task.id ∈ state.visited
  · rw [if_pos seen, walk_drop seen]
  · rw [if_neg seen]
    apply walk_stop seen
    rcases plan_of_unfit stems unfit with actions | actions
    · rw [actions]
      rfl
    · rw [actions]
      simp only [WalkState.performAll, WalkState.perform, WalkState.visit, if_neg seen]

/-- Only a misplaced entry is refused as one. -/
theorem misplaces_of_refused {problem : Problem} (refused : Snapshot.ofTree? tree = .error problem)
    (code : problem.code = .unexpectedItem) :
    ∃ reference declaration, tree.Live reference ∧ tree.Misplaces reference declaration ∧
      problem = .misplaced reference.id declaration.kind
        (reference.role.place reference.referrer declaration) := by
  rcases blamed_of_refused refused with ⟨identity, rfl⟩ | ⟨reference, live, unfit, rfl⟩
  · cases code
  · cases declared : tree.declaration? reference.id with
    | none =>
      rw [fault_of_absent declared] at code
      cases code
    | some declaration =>
      refine ⟨reference, declaration, live, ⟨declared, ?_⟩, fault_of_declared declared⟩
      exact mt (fits_of_declared declared).mpr unfit

end Misplacement

/-- **What is misplaced is refused unless it has been visited.** In a tree that is not refused, a live
reference to an entry that cannot play the role is not one to a part, and the entry is the root or has a
place by another reference. A task for such a reference breaks off the walk, with the code for misplaced
entries, exactly if the entry has not been visited by then; and what is refused with this code is the
entry of such a reference. -/
theorem misplaced_unless_visited (tree : Tree) :
    (∀ s, Snapshot.ofTree? tree = .ok s → ∀ reference declaration, tree.Live reference →
      tree.Misplaces reference declaration →
        ¬reference.role.IsPart ∧ (reference.id = rootId ∨ tree.Placed reference.id)) ∧
    (∀ reference declaration task, tree.Misplaces reference declaration → Stems reference task →
      ∀ state pending, tree.walk state (task :: pending) =
        if task.id ∈ state.visited then tree.walk state pending
        else .error ⟨.misplaced reference.id declaration.kind
          (reference.role.place reference.referrer declaration), state.skipped⟩) ∧
    ∀ problem, Snapshot.ofTree? tree = .error problem → problem.code = .unexpectedItem →
      ∃ reference declaration, tree.Live reference ∧ tree.Misplaces reference declaration ∧
        problem = .misplaced reference.id declaration.kind
          (reference.role.place reference.referrer declaration) := by
  refine ⟨?_, ?_, fun problem refused code => misplaces_of_refused refused code⟩
  · intro s translated reference declaration live misplaced
    rcases fits_or_met_of_translated translated live with fits | met
    · exact absurd fits misplaced.unfit
    · exact met
  · intro reference declaration task misplaced stems state pending
    rw [walk_of_unfit stems misplaced.unfit, fault_of_declared misplaced.1]

/-- A root that lists an enumeration and, before or after it, the variant of that. -/
def strayVariantTree (items : List Int) : Tree where
  index := [
    (0, { declaration := .module { name := "demo", items := items } }),
    (1, { declaration := .enum { name := "E", variants := [3] } }),
    (3, { declaration := .variant { name := "A" } })]
  root := { name := "demo", items := items }
  rooted := rfl

private theorem strayVariantTree_translates :
    ∃ final, Run (strayVariantTree [1, 3]) .start (strayVariantTree [1, 3]).rootTasks
      [⟨1, [], .listed 0⟩] final ∧ final.published.size = 1 :=
  ⟨_, .answer (by decide) rfl (.drop (by decide) .done), rfl⟩

private theorem strayVariantTree_misplaces (items : List Int) :
    (strayVariantTree items).Misplaces ⟨0, .item, 3⟩ (.variant { name := "A" }) :=
  ⟨rfl, not_not_intro trivial⟩

/-- The variant in the root has its place in the enumeration. -/
theorem misplaced_unless_visited_stray_variant :
    (∃ s, Snapshot.ofTree? (strayVariantTree [1, 3]) = .ok s) ∧
      (strayVariantTree [1, 3]).Live ⟨0, .item, 3⟩ ∧ (strayVariantTree [1, 3]).Placed 3 := by
  obtain ⟨final, run, _⟩ := strayVariantTree_translates
  have translated := ofTree?_eq_ok_iff.mpr ⟨_, final, run, rfl⟩
  have live : (strayVariantTree [1, 3]).Live ⟨0, .item, 3⟩ := ⟨.refl, by decide⟩
  obtain ⟨_, root | placed⟩ := (misplaced_unless_visited (strayVariantTree [1, 3])).1 _ translated _ _
    live (strayVariantTree_misplaces [1, 3])
  · cases root
  · exact ⟨⟨_, translated⟩, live, placed⟩

/-- A root may list a variant after its enumeration, which is overlooked; the same lists the other way
round are refused. -/
theorem stray_variant_is_overlooked :
    (∃ s, Snapshot.ofTree? (strayVariantTree [1, 3]) = .ok s ∧ s.size = 1 ∧
      (strayVariantTree [1, 3]).Live ⟨0, .item, 3⟩ ∧
      (strayVariantTree [1, 3]).Misplaces ⟨0, .item, 3⟩ (.variant { name := "A" })) ∧
    Snapshot.ofTree? (strayVariantTree [3, 1]) = .error (.misplaced 3 "variant" .inModule) := by
  constructor
  · obtain ⟨final, run, size⟩ := strayVariantTree_translates
    exact ⟨final.published, ofTree?_eq_ok_iff.mpr ⟨_, final, run, rfl⟩, size, ⟨.refl, by decide⟩,
      strayVariantTree_misplaces [1, 3]⟩
  · exact ofTree?_eq_error_iff.mpr ⟨_, walk_stop (by decide) rfl, rfl⟩

end ApiDelta.Tree
