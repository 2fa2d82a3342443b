import ApiDelta.Proofs.Tellings

/-!
Re-exports of re-exports. A re-export asks for its target under its own name, but the plan of a
re-export does not look at the name under which it is asked for itself. So a chain of them hands down
the path of the module and nothing else, and what stands at its end is published under the name that
the last one gives. A single re-export gives its own name; a name given before that is lost.
-/
namespace ApiDelta.Tree

/-! ## The way of a walk -/

/-- The states and pending tasks that the walk over a tree comes through. -/
inductive Stage (tree : Tree) : WalkState → List Task → Prop where
  | start : Stage tree .start tree.rootTasks
  | drop {state : WalkState} {task : Task} {pending : List Task}
      (stage : Stage tree state (task :: pending)) (seen : task.id ∈ state.visited) :
      Stage tree state pending
  | answer {state middle : WalkState} {task : Task} {pending : List Task}
      (stage : Stage tree state (task :: pending)) (fresh : task.id ∉ state.visited)
      (performed : state.performAll (tree.plan task).actions = .ok middle) :
      Stage tree middle ((tree.plan task).next ++ pending)

section Stages

variable {tree : Tree} {state final : WalkState} {pending answered : List Task}

/-- Where the whole walk ends well, it does so from each stage. -/
theorem Stage.ends {s : Snapshot} (stage : tree.Stage state pending)
    (translated : Snapshot.ofTree? tree = .ok s) :
    ∃ answered final, Run tree state pending answered final ∧ final.published = s := by
  induction stage with
  | start => exact ofTree?_eq_ok_iff.mp translated
  | drop _ seen ih =>
    obtain ⟨answered, final, run, same⟩ := ih
    cases run with
    | drop _ rest => exact ⟨answered, final, rest, same⟩
    | answer fresh => exact absurd seen fresh
  | answer _ fresh performed ih =>
    obtain ⟨_, final, run, same⟩ := ih
    cases run with
    | drop seen => exact absurd seen fresh
    | answer _ performed' rest =>
      cases performed.symm.trans performed'
      exact ⟨_, final, rest, same⟩

/-- A run from a stage is the end of a run over the whole tree. -/
theorem Stage.whole (stage : tree.Stage state pending)
    (run : Run tree state pending answered final) :
    ∃ before, Run tree .start tree.rootTasks (before ++ answered) final := by
  induction stage generalizing answered with
  | start => exact ⟨[], run⟩
  | drop _ seen ih => exact ih (.drop seen run)
  | @answer _ _ task _ _ fresh performed ih =>
    obtain ⟨before, run⟩ := ih (.answer fresh performed run)
    exact ⟨before ++ [task], by rwa [List.append_assoc]⟩

/-- When the first pending tasks are dealt with, the others are pending. -/
theorem Run.stage {middle : WalkState} {left right : List Task}
    (run : Run tree state left answered middle) (stage : tree.Stage state (left ++ right)) :
    tree.Stage middle right := by
  induction run with
  | done => exact stage
  | drop seen _ ih => exact ih (stage.drop seen)
  | answer fresh performed _ ih =>
    refine ih ?_
    rw [List.append_assoc]
    exact stage.answer fresh performed

/-- Where the whole walk ends well, each next task is answered whose entry has not been visited. -/
theorem Stage.answers {s : Snapshot} {task : Task} (stage : tree.Stage state (task :: pending))
    (fresh : task.id ∉ state.visited) (translated : Snapshot.ofTree? tree = .ok s) :
    ∃ answered final, Run tree .start tree.rootTasks answered final ∧ final.published = s ∧
      task ∈ answered := by
  obtain ⟨_, final, run, same⟩ := stage.ends translated
  obtain ⟨before, whole⟩ := stage.whole run
  cases run with
  | drop seen => exact absurd seen fresh
  | answer => exact ⟨_, final, whole, same, List.mem_append_right _ List.mem_cons_self⟩

/-- Only one task is answered with a visit to the entry that it asks for. -/
theorem Run.answers_once (run : Run tree state pending answered final) {task other : Task}
    (member : task ∈ answered) (heeded : tree.Heeds task) (member' : other ∈ answered)
    (heeded' : tree.Heeds other) (same : other.id = task.id) : other = task := by
  have distinct := run.called_once.1
  have answers : ∀ asked ∈ answered, tree.Heeds asked → asked ∈ answered.filter fun asked =>
      .visit asked.id ∈ (tree.plan asked).actions := by
    intro asked member heeded
    exact List.mem_filter.mpr ⟨member, decide_eq_true (tells_plan heeded (run.accepted member)).begun⟩
  exact List.inj_on_of_nodup_map distinct (answers other member' heeded')
    (answers task member heeded) same

end Stages

/-! ## Chains -/

/-- An entry re-exports a target through further re-exports, each the target of the one before, and the
last of them bears the given name. None of them splices a module in. -/
inductive Chain (tree : Tree) : Int → List Int → String → Int → Prop where
  | last {id target : Int} {decl : ReexportDecl}
      (declared : tree.declaration? id = some (.reexport decl)) (single : decl.glob = false)
      (aims : decl.target = some target) : Chain tree id [] decl.name target
  | further {id next target : Int} {decl : ReexportDecl} {inner : List Int} {name : String}
      (declared : tree.declaration? id = some (.reexport decl)) (single : decl.glob = false)
      (aims : decl.target = some next) (rest : Chain tree next inner name target) :
      Chain tree id (next :: inner) name target

/-- What a re-export does not pass on to anything else. -/
def Ends (tree : Tree) (id : Int) : Prop :=
  ∀ decl, tree.declaration? id ≠ some (.reexport decl)

namespace Chain

variable {tree : Tree} {id target target' : Int} {inner inner' : List Int} {name name' : String}

theorem exists_reexport (chain : tree.Chain id inner name target) :
    ∃ decl, tree.declaration? id = some (.reexport decl) := by
  cases chain with
  | last declared => exact ⟨_, declared⟩
  | further declared => exact ⟨_, declared⟩

/-- A single re-export bears the name itself. -/
theorem name_eq {decl : ReexportDecl} (chain : tree.Chain id [] name target)
    (declared : tree.declaration? id = some (.reexport decl)) : name = decl.name := by
  cases chain with
  | last declared' =>
    rw [declared] at declared'
    cases declared'
    rfl

/-- From one entry there is one way to the end. -/
theorem inner_unique (chain : tree.Chain id inner name target) (ends : tree.Ends target)
    (chain' : tree.Chain id inner' name' target') (ends' : tree.Ends target') : inner = inner' := by
  induction chain generalizing inner' with
  | @last _ _ decl declared _ aims =>
    cases chain' with
    | last => rfl
    | further declared' _ aims' rest =>
      rw [declared] at declared'
      cases declared'
      cases aims.symm.trans aims'
      obtain ⟨_, onward⟩ := rest.exists_reexport
      exact absurd onward (ends _)
  | further declared _ aims rest ih =>
    cases chain' with
    | last declared' _ aims' =>
      rw [declared] at declared'
      cases declared'
      cases aims.symm.trans aims'
      obtain ⟨_, onward⟩ := rest.exists_reexport
      exact absurd onward (ends' _)
    | further declared' _ aims' rest' =>
      rw [declared] at declared'
      cases declared'
      cases aims.symm.trans aims'
      exact congrArg _ (ih ends rest')

/-- A chain goes on from each re-export in it, and is shorter from there. -/
theorem of_mem_inner (chain : tree.Chain id inner name target) {other : Int} (member : other ∈ inner) :
    ∃ inner', inner'.length < inner.length ∧ tree.Chain other inner' name target := by
  induction chain with
  | last => cases member
  | further _ _ _ rest ih =>
    rcases List.mem_cons.mp member with rfl | later
    · exact ⟨_, Nat.lt_succ_self _, rest⟩
    · obtain ⟨inner', shorter, chain⟩ := ih later
      exact ⟨inner', shorter.trans (Nat.lt_succ_self _), chain⟩

/-- A chain that comes to an end does not come back to where it started. -/
theorem ne_of_mem (chain : tree.Chain id inner name target) (ends : tree.Ends target) {other : Int}
    (member : other ∈ target :: inner) : other ≠ id := by
  rintro rfl
  rcases List.mem_cons.mp member with rfl | inside
  · obtain ⟨_, declared⟩ := chain.exists_reexport
    exact ends _ declared
  · obtain ⟨inner', shorter, back⟩ := chain.of_mem_inner inside
    rw [chain.inner_unique ends back ends] at shorter
    exact absurd shorter (Nat.lt_irrefl _)

end Chain

/-- A task that a module puts, or a re-export in it. -/
def Task.InModule (task : Task) : Prop :=
  match task.via with
  | .listed _ | .named .. => True
  | .spliced _ | .attached .. => False

section Following

variable {tree : Tree} {state : WalkState} {task : Task} {pending : List Task}

/-- The plan of a re-export does not depend on the name under which it is asked for. -/
theorem plan_of_reexport {decl : ReexportDecl} (inModule : task.InModule)
    (declared : tree.declaration? task.id = some (.reexport decl)) :
    tree.plan task = reexportPlan task.id task.path decl := by
  obtain ⟨id, path, via⟩ := task
  obtain ⟨⟨_, _⟩, found, rfl⟩ := Option.map_eq_some_iff.mp declared
  cases via with
  | listed | named => simp only [plan, found, itemPlan]
  | spliced | attached => exact inModule.elim

/-- A re-export is followed by its target, under its own name and in its own place. -/
theorem Stage.follow {decl : ReexportDecl} {target : Int} (stage : tree.Stage state (task :: pending))
    (inModule : task.InModule) (fresh : task.id ∉ state.visited)
    (declared : tree.declaration? task.id = some (.reexport decl)) (single : decl.glob = false)
    (aims : decl.target = some target) :
    tree.Stage (state.visit task.id)
      (⟨target, task.path, .named task.id decl.name decl.source⟩ :: pending) := by
  have same : tree.plan task = ⟨[.visit task.id],
      [⟨target, task.path, .named task.id decl.name decl.source⟩]⟩ := by
    rw [plan_of_reexport inModule declared, reexportPlan, aims]
    simp only [single, Bool.false_eq_true, if_false]
  have performed : state.performAll (tree.plan task).actions = .ok (state.visit task.id) := by
    rw [same]
    rfl
  have answered := stage.answer fresh performed
  rwa [same] at answered

/-- The walk follows a chain without doing anything else on the way, and then asks for what stands at
its end, in the place of the first re-export and under the name of the last one. -/
theorem Stage.along {id target : Int} {inner : List Int} {name : String}
    (chain : tree.Chain id inner name target) (ends : tree.Ends target)
    (stage : tree.Stage state (task :: pending)) (here : task.id = id) (inModule : task.InModule)
    (fresh : task.id ∉ state.visited) (unmet : ∀ other ∈ target :: inner, other ∉ state.visited) :
    ∃ middle importer source, target ∉ middle.visited ∧
      tree.Stage middle (⟨target, task.path, .named importer name source⟩ :: pending) := by
  induction chain generalizing state task with
  | last declared single aims =>
    subst here
    have apart := (Chain.last declared single aims).ne_of_mem ends List.mem_cons_self
    refine ⟨_, _, _, ?_, stage.follow inModule fresh declared single aims⟩
    rw [WalkState.mem_visited_visit]
    exact not_or.mpr ⟨apart, unmet _ List.mem_cons_self⟩
  | @further _ next target decl inner _ declared single aims rest ih =>
    subst here
    have unmet' : ∀ other ∈ target :: next :: inner, other ∉ (state.visit task.id).visited := by
      intro other member
      rw [WalkState.mem_visited_visit]
      exact not_or.mpr ⟨(Chain.further declared single aims rest).ne_of_mem ends member,
        unmet other member⟩
    have followed := stage.follow inModule fresh declared single aims
    have reached := ih ends followed rfl trivial (unmet' next (by simp)) fun other member =>
      unmet' other (List.cons_subset_cons _ (List.subset_cons_self _ _) member)
    exact reached

end Following

/-! ## What stands at the end -/

/-- The kind and the declared name of a declaration that a module publishes under one identity. -/
def Declaration.standing? : Declaration → Option (IdKind × String)
  | .function decl => some (.function, decl.name)
  | .method decl => some (.method, decl.name)
  | .struct decl => some (.struct, decl.name)
  | .union decl => some (.union, decl.name)
  | .enum decl => some (.enum, decl.name)
  | .typedef decl => some (.typedef, decl.name)
  | .trait decl => some (.trait, decl.name)
  | .constant decl => some (.constant, decl.name)
  | .static decl => some (.static, decl.name)
  | _ => none

section Standing

variable {tree : Tree} {id : Int} {path : List String} {kind : IdKind} {declared : String}

/-- The plan for such a declaration publishes it under the name that a re-export gives. -/
theorem publishes_itemPlan {entry : Entry} {givenName : Option String}
    (standing : entry.declaration.standing? = some (kind, declared)) :
    ∃ item, item.name = chosenName givenName declared ∧
      .publish ⟨id, ⟨path ++ [chosenName givenName declared], kind⟩, item⟩ ∈
        (tree.itemPlan id entry path givenName).actions := by
  obtain ⟨deprecated, declaration⟩ := entry
  cases declaration with
  | struct | union | enum | trait =>
    cases standing
    exact ⟨_, rfl, List.mem_append_right _ (List.mem_singleton_self _)⟩
  | function | method | typedef | constant | static =>
    cases standing
    exact ⟨_, rfl, List.mem_cons_of_mem _ (List.mem_singleton_self _)⟩
  | _ => cases standing

theorem plan_of_standing {entry : Entry} {importer : Int} {name source : String}
    (found : tree.entry? id = some entry)
    (standing : entry.declaration.standing? = some (kind, declared)) :
    tree.plan ⟨id, path, .named importer name source⟩ = tree.itemPlan id entry path (some name) := by
  obtain ⟨deprecated, declaration⟩ := entry
  cases declaration with
  | impl => cases standing
  | _ => simp only [plan, found]

theorem ends_of_standing {declaration : Declaration} (held : tree.declaration? id = some declaration)
    (standing : declaration.standing? = some (kind, declared)) : tree.Ends id := by
  intro decl other
  cases held.symm.trans other
  cases standing

end Standing

theorem chosenName_some_of_ne {name : String} (declared : String) (given : name ≠ "") :
    chosenName (some name) declared = name :=
  if_neg given

/-- **A chain of re-exports gives the last name in it.** Wherever the walk over a tree that translates
comes to a re-export in a module, whose target leads to a declaration through further re-exports, none
of them met before: the declaration is published in the place of the first re-export and under the
name of the last one, and nothing else is answered for it. With no re-export between the two, this is
the own name of the first. -/
theorem chain_gives_last_name {tree : Tree} {s : Snapshot}
    (translated : Snapshot.ofTree? tree = .ok s) {state : WalkState} {task : Task}
    {pending : List Task} (stage : tree.Stage state (task :: pending)) (inModule : task.InModule)
    (fresh : task.id ∉ state.visited) {inner : List Int} {name : String} {target : Int}
    (chain : tree.Chain task.id inner name target)
    (unmet : ∀ id ∈ target :: inner, id ∉ state.visited) {declaration : Declaration} {kind : IdKind}
    {declared : String} (held : tree.declaration? target = some declaration)
    (standing : declaration.standing? = some (kind, declared)) :
    ∃ answered final asked item,
      Run tree .start tree.rootTasks answered final ∧ final.published = s ∧ asked ∈ answered ∧
      (∀ other ∈ answered, tree.Heeds other → other.id = target → other = asked) ∧
      .publish ⟨target, ⟨task.path ++ [chosenName (some name) declared], kind⟩, item⟩ ∈
        (tree.plan asked).actions ∧
      item.name = chosenName (some name) declared ∧
      s.get? ⟨task.path ++ [chosenName (some name) declared], kind⟩ = some item ∧
      ∀ decl, tree.declaration? task.id = some (.reexport decl) → inner = [] → decl.name ≠ "" →
        chosenName (some name) declared = decl.name := by
  obtain ⟨entry, found, rfl⟩ := Option.map_eq_some_iff.mp held
  obtain ⟨middle, importer, source, unspent, reached⟩ :=
    stage.along chain (ends_of_standing held standing) rfl inModule fresh unmet
  obtain ⟨answered, final, run, rfl, member⟩ := reached.answers unspent translated
  have heeded : tree.Heeds ⟨target, task.path, .named importer name source⟩ := by
    rw [heeds_named, found]
    rfl
  obtain ⟨item, named, published⟩ := publishes_itemPlan standing
  rw [← plan_of_standing found standing] at published
  have kept := run.mem_entries.mpr
    ⟨_, List.mem_flatMap.mpr ⟨_, member, mem_publications.mpr published⟩, rfl⟩
  refine ⟨answered, final, _, item, run, rfl, member, ?_, published, named,
    Snapshot.get?_eq_some_iff.mpr kept, ?_⟩
  · exact fun other member' heeded' same => run.answers_once member heeded member' heeded' same
  · rintro decl declared' rfl given
    rw [chain.name_eq declared', chosenName_some_of_ne declared given]

/-- A function that is re-exported as `inner`, which is re-exported as `outer` in the root. -/
def renamedTwiceTree : Tree where
  index := [
    (0, { declaration := .module { name := "demo", items := [1] } }),
    (1, { declaration := .reexport { name := "outer", source := "inner", target := some 2 } }),
    (2, { declaration := .reexport { name := "inner", source := "f", target := some 3 } }),
    (3, { declaration := .function { name := "f", callable := ⟨[], none, [], {}⟩ } })]
  root := { name := "demo", items := [1] }
  rooted := rfl

private theorem renamedTwiceTree_chain : renamedTwiceTree.Chain 1 [2] "inner" 3 := by
  have inner : renamedTwiceTree.declaration? 2 =
      some (.reexport { name := "inner", source := "f", target := some 3 }) := rfl
  have last := Chain.last inner rfl rfl
  exact .further rfl rfl rfl last

private theorem renamedTwiceTree_translated :
    ∃ s, Snapshot.ofTree? renamedTwiceTree = .ok s ∧ s.ids = [⟨["inner"], .function⟩] :=
  ⟨_, ofTree?_eq_ok_iff.mpr ⟨_, _, .answer (by decide) rfl (.answer (by decide) rfl
    (.answer (by decide) rfl .done)), rfl⟩, rfl⟩

/-- The function is published as `inner`. -/
theorem chain_gives_last_name_two_names :
    ∃ s item, Snapshot.ofTree? renamedTwiceTree = .ok s ∧
      s.get? ⟨["inner"], .function⟩ = some item ∧ item.name = "inner" := by
  obtain ⟨s, translated, _⟩ := renamedTwiceTree_translated
  have unmet : ∀ id ∈ [(3 : Int), 2], id ∉ WalkState.start.visited := by decide
  have stage : renamedTwiceTree.Stage .start [⟨1, [], .listed 0⟩] := .start
  obtain ⟨_, _, _, item, _, _, _, _, _, named, held, _⟩ :=
    chain_gives_last_name translated stage trivial (by decide) renamedTwiceTree_chain unmet rfl rfl
  exact ⟨s, item, translated, held, named⟩

/-- The walk comes to the re-export `outer` first of all, and the re-exports lead on to the function.
But nothing is published as `outer`. -/
theorem outer_name_is_lost :
    ∃ s, Snapshot.ofTree? renamedTwiceTree = .ok s ∧
      renamedTwiceTree.Stage .start [⟨1, [], .listed 0⟩] ∧
      renamedTwiceTree.Chain 1 [2] "inner" 3 ∧ (∀ id ∈ [(3 : Int), 2], id ∉ WalkState.start.visited) ∧
      s.get? ⟨["outer"], .function⟩ = none ∧ ∀ entry ∈ s.entries, entry.1 = ⟨["inner"], .function⟩ := by
  obtain ⟨s, translated, ids⟩ := renamedTwiceTree_translated
  have alone : ∀ entry ∈ s.entries, entry.1 = ⟨["inner"], .function⟩ := by
    intro entry member
    have listed : entry.1 ∈ s.ids := List.mem_map_of_mem member
    rw [ids] at listed
    exact List.mem_singleton.mp listed
  refine ⟨s, translated, .start, renamedTwiceTree_chain, by decide, ?_, alone⟩
  refine Option.eq_none_iff_forall_ne_some.mpr fun item held => ?_
  have other : (⟨["outer"], .function⟩ : Identity) = ⟨["inner"], .function⟩ :=
    alone _ (Snapshot.get?_eq_some_iff.mp held)
  exact absurd other (by decide)

end ApiDelta.Tree
