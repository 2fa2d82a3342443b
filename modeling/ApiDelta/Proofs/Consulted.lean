import ApiDelta.Proofs.EditsInPlace
import ApiDelta.Proofs.LiveReferences

/-!
What a translation reads of a tree. The walk looks up the entries that live references lead to, whether
they are there or not, and no others. So two trees that agree on these have the same snapshot, or are
refused for the same reason, whatever else their indexes hold.
-/
namespace ApiDelta.Tree

/-- What the walk may look up: the root, and what a live reference leads to. -/
def Consults (tree : Tree) (id : Int) : Prop :=
  id = rootId ∨ ∃ reference, tree.Live reference ∧ reference.id = id

section Consulting

variable {tree other : Tree} {id : Int}

theorem consults_of_reachable (reachable : tree.Reachable id) : tree.Consults id := by
  cases reachable with
  | refl => exact .inl rfl
  | tail before leads =>
    obtain ⟨reference, refers, same⟩ := exists_reference_of_leads leads
    exact .inr ⟨reference, live_of_references before refers, same⟩

/-- A task of the walk: it asks for what is consulted and, if it is heeded, for what is reachable. -/
def Warrants (tree : Tree) (task : Task) : Prop :=
  tree.Consults task.id ∧ (tree.Heeds task → tree.Reachable task.id)

theorem warrants_next {task next : Task} (warranted : tree.Warrants task)
    (accepted : Accepted (tree.plan task).actions) (member : next ∈ (tree.plan task).next) :
    tree.Warrants next := by
  by_cases heeded : tree.Heeds task
  · have reachable := warranted.2 heeded
    obtain ⟨reference, sought, stems⟩ := (asks_plan accepted heeded).stems next member
    have live := live_of_references reachable (List.mem_append_right _ sought)
    refine ⟨.inr ⟨reference, live, stems.id_eq⟩, fun heeds => ?_⟩
    exact reachable.tail ((covers_plan heeded accepted).onward next member heeds)
  · rw [next_of_passed accepted heeded] at member
    cases member

theorem warrants_rootTasks : ∀ task ∈ tree.rootTasks, tree.Warrants task := by
  intro task member
  obtain ⟨reference, live, stems⟩ := (grounded_start tree).stems task member
  exact ⟨.inr ⟨reference, live, stems.id_eq⟩, (tracks_start tree).asked task member⟩

theorem framed_of_same (same : other.entry? id = tree.entry? id) : (tree.inPlace other).Framed id := by
  have kept : Option.Rel (fun entry entry' => entry.declaration.SameFrame id entry'.declaration)
      (tree.entry? id) (other.entry? id) := by
    rw [same]
    cases tree.entry? id with
    | none => exact .none
    | some entry => exact .some (.refl id _)
  simpa only [Pairing.Framed, inPlace, Declaration.renumber_same, Renumbering.same_apply] using kept

/-- Trees that agree on all that is consulted in the first are walked in parallel. -/
theorem parallel_of_agree (agree : ∀ id, tree.Consults id → other.entry? id = tree.entry? id) :
    (tree.inPlace other).Parallel .start .start tree.rootTasks other.rootTasks := by
  have framed : ∀ id, tree.Consults id → (tree.inPlace other).Framed id :=
    fun id consulted => framed_of_same (agree id consulted)
  refine walk_parallel tree.Warrants ?_ (fun _ warranted accepted _ => warrants_next warranted accepted)
    (WalkState.start_matches _) warrants_rootTasks (rootTasks_matches (framed rootId (.inl rfl)))
  intro task task' warranted inner same
  refine plan_matches same inner (framed _ warranted.1) fun heeded child leads => ?_
  exact framed child (consults_of_reachable ((warranted.2 heeded).trans leads))

theorem declaration?_of_same (same : other.entry? id = tree.entry? id) :
    other.declaration? id = tree.declaration? id := by
  rw [declaration?, declaration?, same]

/-- What is reachable says the same in both trees. -/
theorem unedited_of_agree (agree : ∀ id, tree.Consults id → other.entry? id = tree.entry? id)
    (reachable : tree.Reachable id) :
    (tree.inPlace other).Untouched id ∧ (tree.inPlace other).SameFlag id := by
  have here := agree id (consults_of_reachable reachable)
  have kept : tree.Kept other id := by
    refine ⟨declaration?_of_same here, fun decl declared variant member => ?_⟩
    have part : tree.Leads id variant := .part declared (List.mem_append_left _ member)
    exact declaration?_of_same (agree variant (consults_of_reachable (reachable.tail part)))
  refine ⟨kept.untouched, ?_⟩
  simp only [Pairing.SameFlag, inPlace, Renumbering.same_apply, here]

end Consulting

/-- **What is not consulted has no influence.** Two trees that agree on the root and on all that live
references of the first lead to, on what is there and on what is not, have the same snapshot, or are
refused with the same problem. -/
theorem unconsulted_entries_are_irrelevant {tree other : Tree}
    (agree : ∀ id, tree.Consults id → other.entry? id = tree.entry? id) :
    Snapshot.ofTree? other = Snapshot.ofTree? tree := by
  have outcomes : Snapshot.ofTree? other =
      (Snapshot.ofTree? tree).mapError (Problem.renumber .same) :=
    ofTree?_of_parallel (parallel_of_agree agree) fun id reachable => unedited_of_agree agree reachable
  rw [outcomes]
  cases Snapshot.ofTree? tree with
  | ok s => rfl
  | error problem => exact congrArg Except.error problem.renumber_same

/-- The tree of the shared struct, with a module in the place of the lost entry that would be refused if
it were read: it lists a number without an entry. -/
def lostModuleTree : Tree where
  index := [
    (0, { declaration := .module { name := "demo", items := [1, 3] } }),
    (1, { declaration := .struct { name := "Point", fields := [2], impls := [4] } }),
    (2, { declaration := .structField { name := "x", type := "i32" } }),
    (3, { declaration := .reexport { name := "Dot", source := "crate::Point", target := some 1 } }),
    (4, { declaration := .impl { forType := "Point", trait := some "Send", synthetic := true } }),
    (5, { declaration := .module { name := "lost", items := [7] } })]
  root := { name := "demo", items := [1, 3] }
  rooted := rfl

/-- The two trees have the same outcome, though they differ in the lost entry. -/
theorem unconsulted_entries_are_irrelevant_lost_module :
    lostModuleTree.entry? 5 ≠ sharedStructTree.entry? 5 ∧
      Snapshot.ofTree? lostModuleTree = Snapshot.ofTree? sharedStructTree := by
  have others : ∀ pair ∈ sharedStructTree.index, ∀ reference ∈ sharedStructTree.references pair.1,
      reference.id ≠ 5 := by decide
  refine ⟨by decide, unconsulted_entries_are_irrelevant fun id consulted => ?_⟩
  by_cases lost : id = 5
  · subst lost
    obtain root | ⟨reference, ⟨_, refers⟩, same⟩ := consulted
    · cases root
    · obtain ⟨entry, member⟩ := mem_index_of_references refers
      exact absurd same (others _ member _ refers)
  · have other : (id == 5) = false := beq_false_of_ne lost
    simp only [lostModuleTree, sharedStructTree, entry?, List.lookup_cons, other]

end ApiDelta.Tree
