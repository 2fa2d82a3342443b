import ApiDelta.Proofs.BoundedWalks
import ApiDelta.Proofs.ClassifiedDelta
import ApiDelta.Proofs.LeafInsertions
import ApiDelta.Proofs.ReorderedWalks
import ApiDelta.Version.Advice

/-!
One leaf more is one addition. The walks over a tree and over the tree with the leaf are the same until
the module is answered whose list the leaf was put into, and then until the leaf is asked for. From there
on the second walk is ahead of the first by one visit and one item: it drops what the first drops, since
no task asks for the leaf again, and publishes what the first publishes, since none of it goes under the
identity of the leaf. So the snapshots differ in one entry, and their diagnosis is one addition.
-/
namespace ApiDelta.Tree

/-! ## The list of a module -/

section Modules

variable {tree : Tree} {s : Snapshot} {id : Int} {decl : ModuleDecl}

/-- A task for a module is heeded however it asks for it. -/
theorem heeds_of_module {task : Task} (declared : tree.declaration? task.id = some (.module decl)) :
    tree.Heeds task := by
  obtain ⟨id, path, via⟩ := task
  cases via with
  | listed =>
    intro block isImpl
    cases isImpl.symm.trans declared
  | named =>
    obtain ⟨entry, found, _⟩ := Option.map_eq_some_iff.mp declared
    exact Option.isSome_of_eq_some found
  | spliced => exact ⟨decl, declared⟩
  | attached => trivial

/-- A module that is visited on the way is visited by a task that asks for it, and so under its path. -/
theorem Run.lists {state final : WalkState} {pending answered : List Task}
    (run : Run tree state pending answered final) (stage : tree.Stage state pending)
    (declared : tree.declaration? id = some (.module decl)) (seen : id ∈ final.visited) :
    id ∈ state.visited ∨ ∃ path, tree.ListsUnder id path := by
  induction run with
  | done => exact .inl seen
  | drop met _ ih => exact ih (stage.drop met) seen
  | answer fresh performed _ ih =>
    rcases ih (stage.answer fresh performed) seen with visited | lists
    · rcases (WalkState.mem_visited_performAll performed).mp visited with before | visits
      · exact .inl before
      · have accepted := WalkState.accepted_of_performAll performed
        have tells := tells_plan (heeds_of_visit accepted visits) accepted
        rcases tells.visits id visits with rfl | ⟨declaration, isPart, part⟩
        · exact .inr ⟨_, .inner stage fresh rfl declared rfl⟩
        · cases isPart.symm.trans declared
          exact part.elim
    · exact .inr lists

/-- The items of each module that the root leads to are gone through under a path. -/
theorem exists_listsUnder (translated : Snapshot.ofTree? tree = .ok s)
    (reachable : tree.Reachable id) (declared : tree.declaration? id = some (.module decl)) :
    ∃ path, tree.ListsUnder id path := by
  obtain ⟨answered, final, run, _, _, visited, _⟩ := walk_is_exact translated
  rcases run.lists .start declared ((visited id).mpr reachable) with begun | lists
  · exact ⟨[], .root (List.mem_singleton.mp begun) rfl⟩
  · exact lists

/-- They are gone through under one path only. -/
theorem ListsUnder.unique {path path' : List String} (lists : tree.ListsUnder id path)
    (lists' : tree.ListsUnder id path') (translated : Snapshot.ofTree? tree = .ok s) :
    path = path' := by
  have begun {state : WalkState} {task : Task} {pending : List Task} {first : Int}
      (stage : tree.Stage state (task :: pending)) (fresh : task.id ∉ state.visited)
      (asks : task.id = first) : first ≠ rootId := by
    rintro rfl
    exact fresh (asks ▸ stage.settled.grounded.tracks.begun)
  cases lists with
  | root same empty =>
    cases lists' with
    | root _ empty' => rw [empty, empty']
    | inner stage fresh asks => exact absurd same (begun stage fresh asks)
  | inner stage fresh asks declared under =>
    cases lists' with
    | root same => exact absurd same (begun stage fresh asks)
    | inner stage' fresh' asks' declared' under' =>
      obtain ⟨answered, final, run, _, member⟩ := stage.answers fresh translated
      obtain ⟨answered', final', run', _, member'⟩ := stage'.answers fresh' translated
      cases declared.symm.trans declared'
      obtain rfl := run.unique run'
      -- There is one run, and only one of its tasks can visit the module.
      have once := run.answers_once member (heeds_of_module (asks ▸ declared)) member'
        (heeds_of_module (asks' ▸ declared)) (asks'.trans asks.symm)
      rw [under, under', once]

end Modules

/-! ## The leaf on the way -/

namespace Insertion

variable {tree other : Tree} {insertion : tree.Insertion} {state state' middle final : WalkState}
  {task : Task} {pending left right answered : List Task} {path : List String}

/-- The second state is the first with the leaf visited and published besides. -/
structure Ahead (insertion : tree.Insertion) (path : List String) (state state' : WalkState) :
    Prop where
  visited : ∀ id, id ∈ state'.visited ↔ id = insertion.number ∨ id ∈ state.visited
  published : state'.published.entries.Perm (insertion.published path :: state.published.entries)

theorem Ahead.ids (ahead : insertion.Ahead path state state') :
    state'.published.ids.Perm ((insertion.published path).1 :: state.published.ids) :=
  ahead.published.map Prod.fst

/-- Actions that leave the identity of the leaf free keep the leaf ahead. -/
theorem Ahead.performAll {actions : List Action} (ahead : insertion.Ahead path state state')
    (performed : state.performAll actions = .ok middle)
    (free : (insertion.published path).1 ∉ middle.published.ids) :
    ∃ middle', state'.performAll actions = .ok middle' ∧ insertion.Ahead path middle middle' := by
  obtain ⟨accepted, distinct⟩ := WalkState.performAll_isOk_iff.mp ⟨middle, performed⟩
  have distinct' : ((publications actions).map (·.id) ++ state'.published.ids).Nodup := by
    have ids := (ahead.ids.append_left ((publications actions).map (·.id))).trans List.perm_middle
    rw [ids.nodup_iff, List.nodup_cons]
    exact ⟨mt (WalkState.ids_performAll performed).mem_iff.mpr free, distinct⟩
  obtain ⟨middle', performed'⟩ := WalkState.performAll_isOk_iff.mpr ⟨accepted, distinct'⟩
  refine ⟨middle', performed', fun id => ?_, ?_⟩
  · rw [WalkState.mem_visited_performAll performed', WalkState.mem_visited_performAll performed,
      ahead.visited, or_assoc]
  · rw [WalkState.entries_performAll performed', WalkState.entries_performAll performed]
    exact (ahead.published.append_left _).trans List.perm_middle

/-- No task asks for the leaf in the tree that does not have it. -/
theorem not_asked (stage : tree.Stage state pending) (member : task ∈ pending) :
    task.id ≠ insertion.number := by
  obtain ⟨reference, live, stems⟩ := stage.settled.grounded.stems task member
  rw [← stems.id_eq]
  exact insertion.unnamed _ reference live.2

theorem not_visited (stage : tree.Stage state pending) : insertion.number ∉ state.visited := by
  intro seen
  rcases stage.settled.placed _ seen with root | ⟨reference, live, named, _⟩
  · exact insertion.number_ne_root root
  · exact insertion.unnamed _ reference live.2 named

namespace Makes

variable (makes : insertion.Makes other)

include makes

/-- A task that is answered when the module is behind the walk is planned as before. -/
theorem plan_eq_past (stage : tree.Stage state (task :: pending)) (fresh : task.id ∉ state.visited)
    (past : insertion.host ∈ state.visited) : other.plan task = tree.plan task :=
  makes.plan_eq (fun same => fresh (same ▸ past)) (not_asked stage List.mem_cons_self)

/-- Until the module is answered, the walks are the same. -/
theorem stage_before (stage : tree.Stage state pending) (early : insertion.host ∉ state.visited) :
    other.Stage state pending := by
  induction stage with
  | start =>
    have inner : insertion.host ≠ rootId := fun same => early (List.mem_singleton.mpr same)
    rw [← makes.rootTasks_eq inner]
    exact .start
  | drop _ seen ih => exact (ih early).drop seen
  | @answer state middle task pending stage fresh performed ih =>
    have visited : ∀ id, id ∈ middle.visited ↔
        id ∈ state.visited ∨ .visit id ∈ (tree.plan task).actions :=
      fun _ => WalkState.mem_visited_performAll performed
    have noHost : task.id ≠ insertion.host := by
      intro asks
      refine early ((visited _).mpr (.inr ?_))
      rw [Insertion.plan_host asks (WalkState.accepted_of_performAll performed)]
      exact List.mem_cons_self
    have same := makes.plan_eq noHost (not_asked stage List.mem_cons_self)
    have early' : insertion.host ∉ state.visited := fun seen => early ((visited _).mpr (.inl seen))
    have stage' := (ih early').answer fresh (same ▸ performed)
    rwa [same] at stage'

/-- What is asked for before the leaf is dealt with as before. -/
theorem run_before (run : Run tree state left answered final)
    (stage : tree.Stage state (left ++ right)) (past : insertion.host ∈ state.visited) :
    Run other state left answered final := by
  induction run with
  | done => exact .done
  | drop seen _ ih => exact .drop seen (ih (stage.drop seen) past)
  | answer fresh performed _ ih =>
    have same := makes.plan_eq_past stage fresh past
    have past' := (WalkState.mem_visited_performAll performed).mpr (.inl past)
    refine .answer fresh (same ▸ performed) ?_
    rw [same]
    refine ih ?_ past'
    rw [List.append_assoc]
    exact stage.answer fresh performed

/-- What is asked for after the leaf is dealt with as before, with the leaf ahead. -/
theorem run_after (run : Run tree state pending answered final) (stage : tree.Stage state pending)
    (past : insertion.host ∈ state.visited)
    (free : (insertion.published path).1 ∉ final.published.ids)
    (ahead : insertion.Ahead path state state') :
    ∃ final', Run other state' pending answered final' ∧ insertion.Ahead path final final' := by
  induction run generalizing state' with
  | done => exact ⟨state', .done, ahead⟩
  | drop seen _ ih =>
    obtain ⟨final', run', ahead'⟩ := ih (stage.drop seen) past free ahead
    exact ⟨final', .drop ((ahead.visited _).mpr (.inr seen)) run', ahead'⟩
  | answer fresh performed rest ih =>
    have same := makes.plan_eq_past stage fresh past
    have fresh' := mt (ahead.visited _).mp
      (not_or.mpr ⟨not_asked stage List.mem_cons_self, fresh⟩)
    have past' := (WalkState.mem_visited_performAll performed).mpr (.inl past)
    obtain ⟨middle', performed', between⟩ :=
      ahead.performAll performed fun taken => free (rest.ids_subset taken)
    obtain ⟨final', run', ahead'⟩ := ih (stage.answer fresh performed) past' free between
    refine ⟨final', .answer fresh' (same ▸ performed') ?_, ahead'⟩
    rw [same]
    exact run'

/-- The leaf is answered as soon as it is asked for, and puts the second walk ahead. -/
theorem perform_leaf (free : (insertion.published path).1 ∉ state.published.ids) :
    ∃ state', state.performAll (other.plan (insertion.task path)).actions = .ok state' ∧
      insertion.Ahead path state state' := by
  have plan := makes.plan_leaf path
  have accepted : Accepted (other.plan (insertion.task path)).actions := by
    rw [plan]
    simp [Accepted, publishPlan]
  have distinct : ((publications (other.plan (insertion.task path)).actions).map (·.id) ++
      state.published.ids).Nodup := by
    rw [plan]
    exact List.nodup_cons.mpr ⟨free, state.published.nodup⟩
  obtain ⟨state', performed⟩ := WalkState.performAll_isOk_iff.mpr ⟨accepted, distinct⟩
  refine ⟨state', performed, fun id => ?_, ?_⟩
  · rw [WalkState.mem_visited_performAll performed, plan, or_comm]
    simp [publishPlan]
  · rw [WalkState.entries_performAll performed, plan]
    exact .refl _

/-- The items of the module are dealt with as before, with the leaf among them. -/
theorem run_items (run : Run tree state (left ++ right) answered final)
    (stage : tree.Stage state (left ++ right)) (past : insertion.host ∈ state.visited)
    (free : (insertion.published path).1 ∉ final.published.ids) :
    ∃ answered' final', Run other state (left ++ insertion.task path :: right) answered' final' ∧
      insertion.Ahead path final final' := by
  -- In the middle the second walk answers the leaf, while the first goes on to what comes after it.
  obtain ⟨first, second, middle, begun, ended⟩ := run.split
  have stage' := begun.stage stage
  have past' := begun.mem_visited.mpr (.inl past)
  obtain ⟨middle', performed, ahead⟩ :=
    makes.perform_leaf fun taken => free (ended.ids_subset taken)
  obtain ⟨final', run', ahead'⟩ := makes.run_after ended stage' past' free ahead
  have noMore : (other.plan (insertion.task path)).next = [] := by rw [makes.plan_leaf]; rfl
  have leaf : Run other middle (insertion.task path :: right) (insertion.task path :: second) final' :=
    .answer (not_visited stage') performed (by rw [noMore]; exact run')
  exact ⟨_, final', (makes.run_before begun stage past).append leaf, ahead'⟩

/-- The walk that answers the module first comes to its end with the leaf ahead. -/
theorem run_host (asks : task.id = insertion.host) (stage : tree.Stage state (task :: pending))
    (fresh : task.id ∉ state.visited) (run : Run tree state (task :: pending) answered final)
    (free : (insertion.published (task.itemsPath insertion.decl)).1 ∉ final.published.ids) :
    ∃ answered' final', Run other state (task :: pending) answered' final' ∧
      insertion.Ahead (task.itemsPath insertion.decl) final final' := by
  cases run with
  | drop seen => exact absurd seen fresh
  | @answer _ middle _ _ _ _ _ performed rest =>
    have accepted := WalkState.accepted_of_performAll performed
    have plan := Insertion.plan_host asks accepted
    have plan' := makes.plan_host asks accepted
    have actions : (other.plan task).actions = (tree.plan task).actions := by rw [plan, plan']
    have past : insertion.host ∈ middle.visited := by
      rw [WalkState.mem_visited_performAll performed, plan]
      exact .inr List.mem_cons_self
    have reached := stage.answer fresh performed
    rw [plan, List.append_assoc] at rest reached
    obtain ⟨answered', final', run', ahead⟩ := makes.run_items rest reached past free
    refine ⟨task :: answered', final', .answer fresh (actions ▸ performed) ?_, ahead⟩
    rw [plan', List.append_assoc]
    exact run'

/-- If the leaf is in the list of the root, the walk asks for it from the start. -/
theorem run_root (isRoot : insertion.host = rootId)
    (run : Run tree .start tree.rootTasks answered final)
    (free : (insertion.published []).1 ∉ final.published.ids) :
    ∃ answered' final', Run other .start other.rootTasks answered' final' ∧
      insertion.Ahead [] final final' := by
  have declared : tree.declaration? rootId = some (.module insertion.decl) :=
    isRoot ▸ declared_of_found insertion.hosted
  have declared' : other.declaration? rootId = some (.module insertion.hostDecl) :=
    isRoot ▸ declared_of_found makes.found_host
  have tasks := insertion.listedTasks_decl []
  have tasks' := insertion.listedTasks_hostDecl []
  rw [isRoot, ← root_of_declared declared] at tasks
  rw [isRoot, ← root_of_declared declared'] at tasks'
  have begun : tree.Stage .start tree.rootTasks := .start
  rw [rootTasks, tasks] at run begun
  rw [rootTasks, tasks']
  exact makes.run_items run begun (List.mem_singleton.mpr isRoot) free

/-! ## Whole trees -/

/-- The tree with the leaf is translated like the one without it, with the leaf besides. -/
theorem translates {s : Snapshot} (translated : Snapshot.ofTree? tree = .ok s)
    (lists : tree.ListsUnder insertion.host path)
    (free : (insertion.published path).1 ∉ s.ids) :
    ∃ s', Snapshot.ofTree? other = .ok s' ∧
      s'.entries.Perm (insertion.published path :: s.entries) := by
  cases lists with
  | root isRoot empty =>
    subst empty
    obtain ⟨answered, final, run, rfl⟩ := ofTree?_eq_ok_iff.mp translated
    obtain ⟨answered', final', run', ahead⟩ := makes.run_root isRoot run free
    exact ⟨_, ofTree?_eq_ok_iff.mpr ⟨answered', final', run', rfl⟩, ahead.published⟩
  | inner stage fresh asks declared under =>
    cases declared.symm.trans (declared_of_found insertion.hosted)
    subst under
    obtain ⟨answered, final, run, rfl⟩ := stage.ends translated
    obtain ⟨answered', final', run', ahead⟩ := makes.run_host asks stage fresh run free
    obtain ⟨before, whole⟩ := (makes.stage_before stage (asks ▸ fresh)).whole run'
    exact ⟨_, ofTree?_eq_ok_iff.mpr ⟨before ++ answered', final', whole, rfl⟩, ahead.published⟩

end Makes

end Insertion

theorem get?_of_one_more {s s' : Snapshot} {entry : SnapshotEntry}
    (more : s'.entries.Perm (entry :: s.entries)) (absent : s.get? entry.1 = none) (id : Identity) :
    s'.get? id = if id = entry.1 then some entry.2 else s.get? id := by
  refine Option.ext fun item => ?_
  rw [Snapshot.get?_eq_some_iff, more.mem_iff, List.mem_cons]
  by_cases here : id = entry.1
  · subst here
    have unheld : (entry.1, item) ∉ s.entries := by
      rw [← Snapshot.get?_eq_some_iff, absent]
      exact nofun
    rw [if_pos rfl, or_iff_left unheld, Option.some.injEq, eq_comm, Prod.ext_iff]
    exact and_iff_right rfl
  · have apart : (id, item) ≠ entry := fun same => here (congrArg Prod.fst same)
    rw [if_neg here, or_iff_right apart, Snapshot.get?_eq_some_iff]

/-- **One leaf more is one addition.** The items of a module that the root leads to are gone through
under exactly one path, however often the module is listed and re-exported, and on whatever circles it
lies. A leaf that is put anywhere into its list is published under this path and its own name, if that
identity is still free. The tree with the leaf is then translated to the same snapshot with this entry
besides; the diagnosis of the two is one addition, which calls for a minor release, and the diagnosis of
the way back is one removal, which calls for a major one. -/
theorem leaf_insertion_is_one_addition {tree : Tree} {s : Snapshot}
    (translated : Snapshot.ofTree? tree = .ok s) (insertion : tree.Insertion)
    (reachable : tree.Reachable insertion.host) :
    ∃ path, (∀ path', tree.ListsUnder insertion.host path' ↔ path' = path) ∧
      ∀ id, id = ⟨path ++ [insertion.item.name], insertion.kind⟩ → s.get? id = none →
        ∀ other, insertion.Makes other → ∃ s', Snapshot.ofTree? other = .ok s' ∧
          (∀ id', s'.get? id' = if id' = id then some insertion.item else s.get? id') ∧
          Diagnosis.between s s' = ⟨[.added id insertion.item]⟩ ∧
          (Diagnosis.between s s').bump = .minor ∧
          Diagnosis.between s' s = ⟨[.removed id insertion.item]⟩ ∧
          (Diagnosis.between s' s).bump = .major := by
  obtain ⟨path, lists⟩ :=
    exists_listsUnder translated reachable (declared_of_found insertion.hosted)
  refine ⟨path, fun path' => ⟨fun lists' => lists'.unique lists translated, ?_⟩, ?_⟩
  · rintro rfl
    exact lists
  · rintro id rfl absent other makes
    have free : (insertion.published path).1 ∉ s.ids := by
      intro taken
      obtain ⟨_, held⟩ := Snapshot.mem_ids_iff.mp taken
      cases absent.symm.trans held
    obtain ⟨s', translated', more⟩ := makes.translates translated lists free
    have entries := get?_of_one_more more absent
    obtain ⟨added, removed⟩ :=
      Diagnosis.between_of_one_more (owner_of_leaf insertion.leaf) absent entries
    exact ⟨s', translated', entries, added, by rw [added]; rfl, removed, by rw [removed]; rfl⟩

/-- A module that a re-export splices into the root before the root lists it, and that lists the
re-export itself. -/
def splicedTree : Tree where
  index := [
    (0, { declaration := .module { name := "lib", items := [1, 2] } }),
    (1, { declaration :=
      .reexport { name := "*", source := "self::inner", target := some 2, glob := true } }),
    (2, { declaration := .module { name := "inner", items := [3, 1] } }),
    (3, { declaration := .typedef { name := "Word", type := "u16" } })]
  root := { name := "lib", items := [1, 2] }
  rooted := rfl

/-- A constant goes between the two items of the inner module. -/
def limitInsertion : splicedTree.Insertion where
  host := 2
  deprecated := false
  decl := { name := "inner", items := [3, 1] }
  before := [3]
  after := [1]
  number := 4
  entry := { declaration := .constant { name := "LIMIT", type := "u8" } }
  kind := .constant
  item := { name := "LIMIT", form := .constant "u8" none false false }
  hosted := rfl
  split := rfl
  unused := rfl
  unnamed := by
    intro owner reference refers
    obtain ⟨entry, member⟩ := mem_index_of_references refers
    have spared : ∀ pair ∈ splicedTree.index, ∀ reference ∈ splicedTree.references pair.1,
        reference.id ≠ 4 := by decide
    exact spared _ member reference refers
  leaf := rfl

/-- The constant is added at the root, where the re-export has put the items of the module. -/
theorem leaf_insertion_is_one_addition_spliced :
    let id : Identity := ⟨["LIMIT"], .constant⟩
    ∃ s s', Snapshot.ofTree? splicedTree = .ok s ∧
      Snapshot.ofTree? limitInsertion.result = .ok s' ∧
      Diagnosis.between s s' = ⟨[.added id limitInsertion.item]⟩ ∧
      (Diagnosis.between s s').bump = .minor ∧ (Diagnosis.between s' s).bump = .major := by
  intro id
  obtain ⟨answered, final, run, absent⟩ : ∃ answered final,
      Run splicedTree .start splicedTree.rootTasks answered final ∧
        final.published.get? id = none :=
    ⟨_, _, .answer (by decide) rfl (.answer (by decide) rfl (.answer (by decide) rfl
      (.drop (by decide) (.drop (by decide) .done)))), rfl⟩
  have translated := ofTree?_eq_ok_iff.mpr ⟨answered, final, run, rfl⟩
  have reachable : splicedTree.Reachable limitInsertion.host :=
    .single (.item rfl (List.mem_of_elem_eq_true rfl) nofun)
  have begun : splicedTree.Stage .start [⟨1, [], .listed 0⟩, ⟨2, [], .listed 0⟩] := .start
  have spliced : splicedTree.ListsUnder limitInsertion.host [] :=
    .inner (begun.answer (by decide) rfl) (by decide) rfl rfl rfl
  obtain ⟨path, paths, adds⟩ := leaf_insertion_is_one_addition translated limitInsertion reachable
  obtain rfl := (paths []).mp spliced
  obtain ⟨s', translated', _, added, minor, _, major⟩ :=
    adds id rfl absent _ limitInsertion.makes_result
  exact ⟨_, s', translated, translated', added, minor, major⟩

end ApiDelta.Tree
