import Mathlib.Logic.Equiv.Basic
import ApiDelta.Proofs.ClassifiedDelta
import ApiDelta.Proofs.Lockstep

/-!
The numbers of a tree are only names. A tree and its renumbering are walked in lockstep, and nothing
that is published mentions a number; so both give the same snapshot, or both are refused for the same
reason, told with the numbers of each.
-/
namespace ApiDelta.Tree

variable {scheme : Renumbering} {tree : Tree}

/-- A tree and its renumbering, side by side. -/
def renumbered (scheme : Renumbering) (tree : Tree) : Pairing :=
  ⟨scheme, tree, tree.renumber scheme⟩

theorem renumbered_framed (id : Int) : (tree.renumbered scheme).Framed id := by
  rw [Pairing.Framed, renumbered, entry?_renumber]
  cases tree.entry? id with
  | none => exact .none
  | some entry => exact .some (.refl id _)

theorem renumbered_unedited (id : Int) : (tree.renumbered scheme).Unedited id := by
  simp only [Pairing.Unedited, renumbered, declaration?, entry?_renumber, Option.map_map]
  rfl

theorem renumbered_untouched (id : Int) : (tree.renumbered scheme).Untouched id :=
  ⟨renumbered_unedited id, fun _ _ variant _ => renumbered_unedited variant⟩

theorem renumbered_sameFlag (id : Int) : (tree.renumbered scheme).SameFlag id := by
  simp only [Pairing.SameFlag, renumbered, entry?_renumber, Option.map_map]
  rfl

/-- A renumbering renumbers a refusal, and does nothing else to the outcome. -/
theorem ofTree?_renumber (scheme : Renumbering) (tree : Tree) :
    Snapshot.ofTree? (tree.renumber scheme) =
      (Snapshot.ofTree? tree).mapError (Problem.renumber scheme) := by
  have parallel : (tree.renumbered scheme).Parallel .start .start tree.rootTasks
      (tree.renumber scheme).rootTasks := parallel_of_framed renumbered_framed
  exact ofTree?_of_parallel parallel fun id _ => ⟨renumbered_untouched id, renumbered_sameFlag id⟩

/-- **Numbers are only names.** Whatever numbers the entries of a tree are given, as long as different
entries keep different numbers and the root its own, the tree has the same snapshot, or it is refused
with the same code and with the new number of the entry at fault. So a tree never differs from its
renumbering. -/
theorem numbers_are_names (scheme : Renumbering) (tree : Tree) :
    (∀ s, Snapshot.ofTree? (tree.renumber scheme) = .ok s ↔ Snapshot.ofTree? tree = .ok s) ∧
      (∀ problem, Snapshot.ofTree? tree = .error problem →
        ∃ told, Snapshot.ofTree? (tree.renumber scheme) = .error told ∧
          told.code = problem.code ∧ told.itemId = problem.itemId.map scheme) ∧
      ∀ s s', Snapshot.ofTree? tree = .ok s → Snapshot.ofTree? (tree.renumber scheme) = .ok s' →
        (Diagnosis.between s s').changes = [] := by
  rw [ofTree?_renumber]
  cases Snapshot.ofTree? tree with
  | ok s =>
    refine ⟨fun _ => Iff.rfl, ?_, ?_⟩
    · rintro problem ⟨⟩
    · rintro _ _ ⟨⟩ ⟨⟩
      exact Diagnosis.between_self s
  | error problem =>
    refine ⟨fun s => ?_, ?_, ?_⟩
    · exact ⟨nofun, nofun⟩
    · rintro _ ⟨⟩
      exact ⟨_, rfl, problem.code_renumber scheme, problem.itemId_renumber scheme⟩
    · rintro _ _ ⟨⟩

/-- The second and the fourth entry change places. -/
def exchange : Renumbering :=
  ⟨Equiv.swap 1 3, (Equiv.swap 1 3).injective, rfl⟩

/-- A root that lists a number which leads nowhere. -/
def brokenTree : Tree where
  index := [(0, { declaration := .module { name := "demo", items := [3] } })]
  root := { name := "demo", items := [3] }
  rooted := rfl

/-- The shared struct has one snapshot under its numbers and under others, and the broken tree is
refused under both, once for entry 3 and once for entry 1. -/
theorem numbers_are_names_exchange :
    (∃ s, Snapshot.ofTree? sharedStructTree = .ok s ∧
      Snapshot.ofTree? (sharedStructTree.renumber exchange) = .ok s ∧
      (Diagnosis.between s s).changes = []) ∧
    ∃ told, Snapshot.ofTree? (brokenTree.renumber exchange) = .error told ∧
      told.code = .danglingReference ∧ told.itemId = some 1 := by
  constructor
  · have run : ∃ final, Run sharedStructTree .start sharedStructTree.rootTasks
        [⟨1, [], .listed 0⟩, ⟨4, ["Point"], .attached ⟨["Point"], .struct⟩ 1⟩, ⟨3, [], .listed 0⟩]
        final :=
      ⟨_, .answer (by decide) rfl (.answer (by decide) rfl (.answer (by decide) rfl
        (.drop (by decide) .done)))⟩
    obtain ⟨final, run⟩ := run
    have translated : Snapshot.ofTree? sharedStructTree = .ok final.published :=
      ofTree?_eq_ok_iff.mpr ⟨_, final, run, rfl⟩
    obtain ⟨same, _, compared⟩ := numbers_are_names exchange sharedStructTree
    have moved := (same final.published).mpr translated
    exact ⟨final.published, translated, moved, compared _ _ translated moved⟩
  · have refused : Snapshot.ofTree? brokenTree = .error (.dangling 3 0) :=
      ofTree?_eq_error_iff.mpr ⟨_, walk_stop (by decide) rfl, rfl⟩
    obtain ⟨told, broken, code, itemId⟩ := (numbers_are_names exchange brokenTree).2.1 _ refused
    exact ⟨told, broken, code, itemId⟩

end ApiDelta.Tree
