import ApiDelta.Proofs.PlanCoverage

/-!
A walk that ends well visits exactly what the root leads to. The walk takes the first path to an entry
and drops all later ones, but no link is lost by that: an entry is visited together with all that it
leads to, or a pending task still asks for it. So what is visited in the end does not depend on the
order of the lists in a tree, while the paths of the published items may.
-/
namespace ApiDelta.Tree

/-- What holds all along a run from the start of a walk. Only reachable entries are visited or asked
for, and every link from a visited entry leads to a visited one or to one that is asked for. -/
structure Tracks (tree : Tree) (state : WalkState) (pending : List Task) : Prop where
  begun : rootId ∈ state.visited
  reached : ∀ id ∈ state.visited, tree.Reachable id
  asked : ∀ task ∈ pending, tree.Heeds task → tree.Reachable task.id
  followed : ∀ id ∈ state.visited, ∀ child, tree.Leads id child →
    child ∈ state.visited ∨ ∃ task ∈ pending, task.id = child ∧ tree.Heeds task

section Tracking

variable {tree : Tree} {state middle final : WalkState} {task : Task} {pending answered : List Task}

theorem declaration?_rootId (tree : Tree) : tree.declaration? rootId = some (.module tree.root) :=
  tree.rooted

/-- The tasks of the start ask for all that the root leads to. -/
theorem tracks_start (tree : Tree) : tree.Tracks .start tree.rootTasks := by
  have covers : tree.Covers rootId [.visit rootId] tree.rootTasks :=
    covers_module tree.declaration?_rootId
  constructor
  case begun => exact List.mem_singleton_self rootId
  case reached =>
    intro id seen
    cases List.mem_singleton.mp seen
    exact .refl
  case asked => exact fun task member heeded => .single (covers.onward task member heeded)
  case followed =>
    intro id seen child leads
    cases List.mem_singleton.mp seen
    rcases covers.followed rootId child (List.mem_singleton_self _) leads with visited | later
    · cases List.mem_singleton.mp visited
      exact .inl (List.mem_singleton_self rootId)
    · exact .inr later

theorem Tracks.drop (tracks : tree.Tracks state (task :: pending)) (seen : task.id ∈ state.visited) :
    tree.Tracks state pending := by
  constructor
  case begun => exact tracks.begun
  case reached => exact tracks.reached
  case asked => exact fun other member => tracks.asked other (List.mem_cons_of_mem _ member)
  case followed =>
    intro id visited child leads
    rcases tracks.followed id visited child leads with done | ⟨other, member, rfl, heeded⟩
    · exact .inl done
    · rcases List.mem_cons.mp member with rfl | later
      · exact .inl seen
      · exact .inr ⟨other, later, rfl, heeded⟩

/-- A task that is heeded accounts for its own entry, and its further tasks for the rest. -/
theorem Tracks.heed (tracks : tree.Tracks state (task :: pending)) (heeded : tree.Heeds task)
    (performed : state.performAll (tree.plan task).actions = .ok middle) :
    tree.Tracks middle ((tree.plan task).next ++ pending) := by
  have covers := covers_plan heeded (WalkState.accepted_of_performAll performed)
  have origin := tracks.asked task List.mem_cons_self heeded
  have visited : ∀ id, id ∈ middle.visited ↔
      id ∈ state.visited ∨ .visit id ∈ (tree.plan task).actions :=
    fun _ => WalkState.mem_visited_performAll performed
  constructor
  case begun => exact (visited rootId).mpr (.inl tracks.begun)
  case reached =>
    intro id seen
    rcases (visited id).mp seen with before | now
    · exact tracks.reached id before
    · exact origin.trans (covers.within id now)
  case asked =>
    intro other member heeds
    rcases List.mem_append.mp member with new | old
    · exact origin.tail (covers.onward other new heeds)
    · exact tracks.asked other (List.mem_cons_of_mem _ old) heeds
  case followed =>
    intro id seen child leads
    rcases (visited id).mp seen with before | now
    · rcases tracks.followed id before child leads with done | ⟨other, member, rfl, heeds⟩
      · exact .inl ((visited child).mpr (.inl done))
      · rcases List.mem_cons.mp member with rfl | later
        · exact .inl ((visited other.id).mpr (.inr covers.begun))
        · exact .inr ⟨other, List.mem_append_right _ later, rfl, heeds⟩
    · rcases covers.followed id child now leads with done | ⟨other, member, same, heeds⟩
      · exact .inl ((visited child).mpr (.inr done))
      · exact .inr ⟨other, List.mem_append_left _ member, same, heeds⟩

/-- A task that is not heeded visits nothing and asks for nothing. -/
theorem Tracks.pass (tracks : tree.Tracks state (task :: pending)) (passed : ¬tree.Heeds task)
    (performed : state.performAll (tree.plan task).actions = .ok middle) :
    tree.Tracks middle ((tree.plan task).next ++ pending) := by
  obtain ⟨still, last⟩ : (∀ id, .visit id ∉ (tree.plan task).actions) ∧
      (tree.plan task).next = [] := by
    cases answer_of_accepted (WalkState.accepted_of_performAll performed) with
    | idle _ still _ last => exact ⟨still, last⟩
    | item _ heeds | splice heeds | block _ heeds => exact absurd heeds passed
  have unchanged : ∀ id, id ∈ middle.visited ↔ id ∈ state.visited := by
    intro id
    rw [WalkState.mem_visited_performAll performed]
    exact or_iff_left (still id)
  rw [last, List.nil_append]
  constructor
  case begun => exact (unchanged rootId).mpr tracks.begun
  case reached => exact fun id seen => tracks.reached id ((unchanged id).mp seen)
  case asked => exact fun other member => tracks.asked other (List.mem_cons_of_mem _ member)
  case followed =>
    intro id seen child leads
    rcases tracks.followed id ((unchanged id).mp seen) child leads with
      done | ⟨other, member, rfl, heeds⟩
    · exact .inl ((unchanged child).mpr done)
    · rcases List.mem_cons.mp member with rfl | later
      · exact absurd heeds passed
      · exact .inr ⟨other, later, rfl, heeds⟩

theorem Tracks.answer (tracks : tree.Tracks state (task :: pending))
    (performed : state.performAll (tree.plan task).actions = .ok middle) :
    tree.Tracks middle ((tree.plan task).next ++ pending) := by
  by_cases heeded : tree.Heeds task
  · exact tracks.heed heeded performed
  · exact tracks.pass heeded performed

/-- What is tracked at the start of a run is tracked to its end. -/
theorem Run.tracks (run : Run tree state pending answered final)
    (tracks : tree.Tracks state pending) : tree.Tracks final [] := by
  induction run with
  | done => exact tracks
  | drop seen _ ih => exact ih (tracks.drop seen)
  | answer _ performed _ ih => exact ih (tracks.answer performed)

/-- With no task left, what is visited is what the root leads to. -/
theorem Tracks.mem_visited_iff (tracks : tree.Tracks state []) (id : Int) :
    id ∈ state.visited ↔ tree.Reachable id := by
  constructor
  · exact tracks.reached id
  · intro reachable
    induction reachable with
    | refl => exact tracks.begun
    | tail _ leads ih =>
      rcases tracks.followed _ ih _ leads with done | ⟨_, none, _⟩
      · exact done
      · cases none

end Tracking

/-! ## Emissions -/

section Emissions

variable {tree : Tree} {state final : WalkState} {pending answered : List Task}

/-- Every emission tells of an entry that is visited. -/
theorem Run.sourced (run : Run tree state pending answered final) {publication : Publication}
    (emitted : publication ∈ tree.emissions answered) :
    publication.source ∈ final.visited ∧ tree.Portrays publication := by
  obtain ⟨task, member, published⟩ := List.mem_flatMap.mp emitted
  have accepted := run.accepted member
  have covers := covers_plan (heeds_of_publish accepted published) accepted
  obtain ⟨visits, portrays⟩ := covers.sourced publication (mem_publications.mp published)
  exact ⟨run.mem_visited.mpr (.inr ⟨task, member, visits⟩), portrays⟩

/-- Every public entry that is visited on the way is told of. -/
theorem Run.told (run : Run tree state pending answered final) {id : Int} {declaration : Declaration}
    (fresh : id ∉ state.visited) (seen : id ∈ final.visited)
    (declared : tree.declaration? id = some declaration) (isPublic : declaration.IsPublic) :
    ∃ publication ∈ tree.emissions answered, publication.source = id := by
  rcases run.mem_visited.mp seen with before | ⟨task, member, visits⟩
  · exact absurd before fresh
  · have accepted := run.accepted member
    have covers := covers_plan (heeds_of_visit accepted visits) accepted
    obtain ⟨publication, published, source⟩ := covers.told id declaration visits declared isPublic
    have emitted : publication ∈ tree.emissions answered :=
      List.mem_flatMap.mpr ⟨task, member, mem_publications.mpr published⟩
    exact ⟨publication, emitted, source⟩

theorem Run.mem_entries (run : Run tree .start pending answered final) {entry : SnapshotEntry} :
    entry ∈ final.published.entries ↔
      ∃ publication ∈ tree.emissions answered, publication.entry = entry := by
  rw [run.entries_of_start, List.mem_reverse, List.mem_map]

end Emissions

/-- What a walk that ends well has visited is what the root leads to. -/
theorem mem_visited_of_walkAll {tree : Tree} {final : WalkState} (walked : tree.walkAll = .ok final)
    (id : Int) : id ∈ final.visited ↔ tree.Reachable id := by
  obtain ⟨answered, run⟩ := walk_eq_ok_iff.mp walked
  exact (run.tracks (tracks_start tree)).mem_visited_iff id

/-- Trees with the same links are visited alike, in whatever order their lists are. -/
theorem visited_of_same_links {tree other : Tree} {final final' : WalkState}
    (same : ∀ id child, tree.Leads id child ↔ other.Leads id child)
    (walked : tree.walkAll = .ok final) (walked' : other.walkAll = .ok final') (id : Int) :
    id ∈ final.visited ↔ id ∈ final'.visited := by
  have links : tree.Leads = other.Leads := by
    funext id child
    exact propext (same id child)
  rw [mem_visited_of_walkAll walked, mem_visited_of_walkAll walked', Reachable, Reachable, links]

/-- **The walk loses and invents nothing.** What it visits is what the root leads to; each public entry
among this is told of by an item of the snapshot, and each item tells of such an entry; and no item has
taken the place of another. -/
theorem walk_is_exact {tree : Tree} {s : Snapshot} (translated : Snapshot.ofTree? tree = .ok s) :
    ∃ answered final, Run tree .start tree.rootTasks answered final ∧
      tree.walkAll = .ok final ∧ final.published = s ∧
      (∀ id, id ∈ final.visited ↔ tree.Reachable id) ∧
      (∀ id declaration, tree.Reachable id → tree.declaration? id = some declaration →
        declaration.IsPublic →
        ∃ publication ∈ tree.emissions answered,
          publication.source = id ∧ publication.entry ∈ s.entries) ∧
      (∀ entry ∈ s.entries, ∃ publication ∈ tree.emissions answered,
        publication.entry = entry ∧ tree.Reachable publication.source ∧
          tree.Portrays publication) ∧
      s.size = (tree.emissions answered).length := by
  obtain ⟨answered, final, run, rfl⟩ := ofTree?_eq_ok_iff.mp translated
  have walked : tree.walkAll = .ok final := walk_eq_ok_iff.mpr ⟨answered, run⟩
  have visited := mem_visited_of_walkAll walked
  refine ⟨answered, final, run, walked, rfl, visited, ?_, ?_, ?_⟩
  · intro id declaration reachable declared isPublic
    have fresh : id ∉ WalkState.start.visited := by
      intro root
      cases List.mem_singleton.mp root
      rw [declaration?_rootId] at declared
      cases declared
      exact isPublic
    obtain ⟨publication, emitted, source⟩ :=
      run.told fresh ((visited id).mpr reachable) declared isPublic
    exact ⟨publication, emitted, source, run.mem_entries.mpr ⟨publication, emitted, rfl⟩⟩
  · intro entry member
    obtain ⟨publication, emitted, same⟩ := run.mem_entries.mp member
    obtain ⟨seen, portrays⟩ := run.sourced emitted
    exact ⟨publication, emitted, same, (visited _).mp seen, portrays⟩
  · rw [Snapshot.size, run.entries_of_start, List.length_reverse, List.length_map]

/-- A struct that a module lists and re-exports, with a field and a block for an auto trait. Nothing
leads to the last entry. -/
def sharedStructTree : Tree where
  index := [
    (0, { declaration := .module { name := "demo", items := [1, 3] } }),
    (1, { declaration := .struct { name := "Point", fields := [2], impls := [4] } }),
    (2, { declaration := .structField { name := "x", type := "i32" } }),
    (3, { declaration := .reexport { name := "Dot", source := "crate::Point", target := some 1 } }),
    (4, { declaration := .impl { forType := "Point", trait := some "Send", synthetic := true } }),
    (5, { declaration := .constant { name := "LOST", type := "u8" } })]
  root := { name := "demo", items := [1, 3] }
  rooted := rfl

/-- The walk over the shared struct publishes the struct and its field, once, and visits all entries
but the lost one. -/
theorem walk_is_exact_shared_struct :
    ∃ s, Snapshot.ofTree? sharedStructTree = .ok s ∧ s.size = 2 ∧
      ∀ id, sharedStructTree.Reachable id ↔ id ∈ [3, 4, 2, 1, 0] := by
  have run : ∃ final, Run sharedStructTree .start sharedStructTree.rootTasks
      [⟨1, [], .listed 0⟩, ⟨4, ["Point"], .attached ⟨["Point"], .struct⟩ 1⟩, ⟨3, [], .listed 0⟩]
      final ∧ final.visited = [3, 4, 2, 1, 0] ∧ final.published.size = 2 :=
    ⟨_, .answer (by decide) rfl (.answer (by decide) rfl (.answer (by decide) rfl
      (.drop (by decide) .done))), rfl, rfl⟩
  obtain ⟨final, run, visited, size⟩ := run
  have translated : Snapshot.ofTree? sharedStructTree = .ok final.published :=
    ofTree?_eq_ok_iff.mpr ⟨_, final, run, rfl⟩
  refine ⟨final.published, translated, size, fun id => ?_⟩
  obtain ⟨_, other, _, walked, _, reachable, _⟩ := walk_is_exact translated
  have same : sharedStructTree.walkAll = .ok final := walk_eq_ok_iff.mpr ⟨_, run⟩
  rw [same] at walked
  cases walked
  rw [← reachable, visited]

end ApiDelta.Tree
