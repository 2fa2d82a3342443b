import ApiDelta.Proofs.LiveReferences
import ApiDelta.Proofs.ReorderedWalks

/-!
Tasks that are due. The root asks for the items of its module, and the plan of a due task for more. A
walk answers no other tasks, but it drops those that it meets too late. In a tree where no entry stands
in two lists nothing is met twice, so a walk that ends well has answered all that is due. Then it does
not matter in which order tasks are pending: the tree can be flattened exactly if all due tasks are
compatible, and the snapshot holds exactly what they publish.
-/
namespace ApiDelta.Tree

/-- A task is due if the root asks for it, or a due task that is not refused. -/
inductive Due (tree : Tree) : Task → Prop where
  | root {task : Task} (asked : task ∈ tree.rootTasks) : Due tree task
  | next {task further : Task} (due : Due tree task) (accepted : Accepted (tree.plan task).actions)
      (asked : further ∈ (tree.plan task).next) : Due tree further

/-- All due tasks can be answered in one snapshot. -/
structure Compatible (tree : Tree) : Prop where
  accepted : ∀ task, tree.Due task → Accepted (tree.plan task).actions
  distinct : ∀ task, tree.Due task →
    ((publications (tree.plan task).actions).map (·.id)).Nodup
  apart : ∀ task task', tree.Due task → tree.Due task' → task ≠ task' →
    ∀ told ∈ publications (tree.plan task).actions,
    ∀ told' ∈ publications (tree.plan task').actions, told.id ≠ told'.id

section Reordered

variable {free : Bool} {tree other : Tree} {task : Task}

theorem Due.reordered (same : tree.Reordered free other) (due : tree.Due task) : other.Due task := by
  induction due with
  | root asked => exact .root ((rootTasks_reordered same).perm.mem_iff.mp asked)
  | @next task further _ accepted asked ih =>
    have plans := plan_reordered same task
    exact .next ih (accepted_of_perm plans.actions accepted) (plans.next.perm.mem_iff.mp asked)

theorem Compatible.reordered (same : tree.Reordered free other) (compatible : tree.Compatible) :
    other.Compatible := by
  have told (task : Task) : (publications (tree.plan task).actions).Perm
      (publications (other.plan task).actions) := publications_perm (plan_reordered same task).actions
  constructor
  case accepted =>
    intro task due
    exact accepted_of_perm (plan_reordered same task).actions
      (compatible.accepted task (due.reordered same.symm))
  case distinct =>
    intro task due
    exact ((told task).map _).nodup_iff.mp (compatible.distinct task (due.reordered same.symm))
  case apart =>
    intro task task' due due' different here member there member'
    exact compatible.apart task task' (due.reordered same.symm) (due'.reordered same.symm) different
      here ((told task).mem_iff.mpr member) there ((told task').mem_iff.mpr member')

end Reordered

/-! ## Walks through compatible tasks -/

section Walks

variable {tree : Tree} {state middle final : WalkState} {task : Task} {pending answered : List Task}

/-- Along a walk, what is pending is due, and what is published comes from a due task whose entry is
visited. -/
structure OnDuty (tree : Tree) (state : WalkState) (pending : List Task) : Prop where
  due : ∀ task ∈ pending, tree.Due task
  told : ∀ id ∈ state.published.ids, ∃ task, tree.Due task ∧ task.id ∈ state.visited ∧
    ∃ told ∈ publications (tree.plan task).actions, told.id = id

theorem onDuty_start (tree : Tree) : tree.OnDuty .start tree.rootTasks where
  due := fun _ asked => .root asked
  told := nofun

theorem OnDuty.drop (onDuty : tree.OnDuty state (task :: pending)) : tree.OnDuty state pending where
  due := fun other member => onDuty.due other (List.mem_cons_of_mem _ member)
  told := onDuty.told

theorem OnDuty.answer (onDuty : tree.OnDuty state (task :: pending))
    (performed : state.performAll (tree.plan task).actions = .ok middle) :
    tree.OnDuty middle ((tree.plan task).next ++ pending) := by
  have accepted := WalkState.accepted_of_performAll performed
  have due := onDuty.due task List.mem_cons_self
  have visited : ∀ id, id ∈ middle.visited ↔
      id ∈ state.visited ∨ .visit id ∈ (tree.plan task).actions :=
    fun _ => WalkState.mem_visited_performAll performed
  constructor
  case due =>
    intro other member
    rcases List.mem_append.mp member with new | old
    · exact .next due accepted new
    · exact onDuty.due other (List.mem_cons_of_mem _ old)
  case told =>
    intro id member
    obtain ⟨entry, held, rfl⟩ := List.mem_map.mp member
    rw [WalkState.entries_performAll performed, List.mem_append, List.mem_reverse,
      List.mem_map] at held
    rcases held with ⟨told, published, rfl⟩ | before
    · have heeded := heeds_of_publish accepted published
      exact ⟨task, due, (visited _).mpr (.inr (covers_plan heeded accepted).begun), told, published,
        rfl⟩
    · obtain ⟨other, due, seen, rest⟩ := onDuty.told _ (List.mem_map_of_mem before)
      exact ⟨other, due, (visited _).mpr (.inl seen), rest⟩

/-- A fresh task among compatible ones is carried out. -/
theorem OnDuty.performs (onDuty : tree.OnDuty state (task :: pending)) (compatible : tree.Compatible)
    (fresh : task.id ∉ state.visited) :
    ∃ after, state.performAll (tree.plan task).actions = .ok after := by
  have due := onDuty.due task List.mem_cons_self
  refine WalkState.performAll_isOk_iff.mpr ⟨compatible.accepted task due, ?_⟩
  refine List.nodup_append.mpr ⟨compatible.distinct task due, state.published.nodup, ?_⟩
  intro id published taken held same
  subst same
  obtain ⟨told, member, rfl⟩ := List.mem_map.mp published
  obtain ⟨other, due', seen, told', member', same⟩ := onDuty.told _ held
  have different : task ≠ other := fun equal => fresh (equal ▸ seen)
  exact compatible.apart task other due due' different told member told' member' same.symm

/-- A walk through compatible tasks comes to its end. -/
theorem OnDuty.ends (onDuty : tree.OnDuty state pending) (compatible : tree.Compatible) :
    ∃ final, tree.walk state pending = .ok final := by
  fun_induction walk tree state pending with
  | case1 state => exact ⟨state, rfl⟩
  | case2 state task pending seen ih => exact ih onDuty.drop
  | case3 state task pending fresh stop performed =>
    obtain ⟨after, goes⟩ := onDuty.performs compatible fresh
    cases performed.symm.trans goes
  | case4 state task pending fresh middle performed ih => exact ih (onDuty.answer performed)

theorem Run.due (run : Run tree state pending answered final) (onDuty : tree.OnDuty state pending)
    (member : task ∈ answered) : tree.Due task := by
  induction run with
  | done => cases member
  | drop _ _ ih => exact ih onDuty.drop member
  | answer _ performed _ ih =>
    rcases List.mem_cons.mp member with rfl | later
    · exact onDuty.due _ List.mem_cons_self
    · exact ih (onDuty.answer performed) later

/-- A walk answers a pending task, or it visits what the task asks for. -/
theorem Run.answered_or_visited (run : Run tree state pending answered final)
    (member : task ∈ pending) : task ∈ answered ∨ task.id ∈ final.visited := by
  induction run with
  | done => cases member
  | drop seen rest ih =>
    rcases List.mem_cons.mp member with rfl | later
    · exact .inr (rest.mem_visited.mpr (.inl seen))
    · exact ih later
  | answer _ _ _ ih =>
    rcases List.mem_cons.mp member with rfl | later
    · exact .inl List.mem_cons_self
    · exact (ih (List.mem_append_right _ later)).imp_left (List.mem_cons_of_mem _)

/-- So it does with what an answered task asks for. -/
theorem Run.next_answered_or_visited (run : Run tree state pending answered final)
    {asking : Task} (answers : asking ∈ answered) (member : task ∈ (tree.plan asking).next) :
    task ∈ answered ∨ task.id ∈ final.visited := by
  induction run with
  | done => cases answers
  | drop _ _ ih => exact ih answers
  | answer _ _ rest ih =>
    rcases List.mem_cons.mp answers with rfl | later
    · exact (rest.answered_or_visited (List.mem_append_left _ member)).imp_left
        (List.mem_cons_of_mem _)
    · exact (ih later).imp_left (List.mem_cons_of_mem _)

end Walks

/-! ## Trees without sharing -/

/-- In lists put together without duplicates, an element tells the list that it comes from. -/
theorem eq_of_nodup_flatMap {α β : Type} {list : List α} {make : α → List β}
    (distinct : (list.flatMap make).Nodup) {a b : α} {x : β} (first : a ∈ list) (second : b ∈ list)
    (inside : x ∈ make a) (inside' : x ∈ make b) : a = b := by
  by_contra different
  have symmetric : Std.Symm (Function.onFun List.Disjoint make) :=
    ⟨fun _ _ apart => List.Disjoint.symm apart⟩
  exact (List.nodup_flatMap.mp distinct).2.forall first second different inside inside'

/-- The numbers in the lists of a declaration. -/
def Declaration.listed : Declaration → List Int
  | .module decl => decl.items
  | .struct decl => decl.fields ++ decl.impls
  | .union decl => decl.fields ++ decl.impls
  | .enum decl => decl.variants ++ decl.impls
  | .variant decl => decl.fields
  | .trait decl => decl.items
  | .impl decl => decl.items
  | _ => []

def listed (tree : Tree) (id : Int) : List Int :=
  ((tree.declaration? id).map Declaration.listed).getD []

/-- No number occurs twice in the lists of all entries, the root in none, and nothing is re-exported. -/
structure Unshared (tree : Tree) : Prop where
  once : ∀ id, (tree.listed id).Nodup
  apart : ∀ id id' child, child ∈ tree.listed id → child ∈ tree.listed id' → id = id'
  rootless : ∀ id, rootId ∉ tree.listed id
  closed : ∀ id decl, tree.declaration? id ≠ some (.reexport decl)

section Unshared

variable {free : Bool} {tree other : Tree} {reference reference' : Reference} {id id' : Int}
  {task task' : Task}

theorem listed_reordered (same : tree.Reordered free other) (id : Int) :
    (tree.listed id).Perm (other.listed id) := by
  unfold listed
  rcases same.found id with ⟨absent, absent'⟩ | ⟨_, _, _, found, found', declarations⟩
  · rw [declaration?_of_absent absent, declaration?_of_absent absent']
  · rw [declared_of_found found, declared_of_found found']
    cases declarations with
    | same => exact .refl _
    | module listed => exact listed.perm
    | struct held listed | union held listed | enum held listed => exact held.append listed.perm
    | variant held | trait held | impl held => exact held

theorem Unshared.reordered (same : tree.Reordered free other) (unshared : tree.Unshared) :
    other.Unshared := by
  have listed (id : Int) := listed_reordered same id
  constructor
  case once => exact fun id => (listed id).nodup_iff.mp (unshared.once id)
  case apart =>
    intro id id' child member member'
    exact unshared.apart id id' child ((listed id).mem_iff.mpr member)
      ((listed id').mem_iff.mpr member')
  case rootless => exact fun id member => unshared.rootless id ((listed id).mem_iff.mpr member)
  case closed =>
    intro id decl declared
    rcases same.found id with ⟨_, absent'⟩ | ⟨_, _, _, found, found', declarations⟩
    · rw [declaration?_of_absent absent'] at declared
      cases declared
    · rw [declared_of_found found'] at declared
      cases declared
      cases declarations with
      | same => exact unshared.closed id decl (declared_of_found found)

theorem Role.map_id_references {role : Role} {referrer : Int} (ids : List Int) :
    (role.references referrer ids).map (·.id) = ids := by
  rw [references, List.map_map]
  exact List.map_id' ids

/-- References lead to what stands in the lists of their entry, each to another place. -/
theorem Unshared.references_sublist (unshared : tree.Unshared) (id : Int) :
    ((tree.references id).map (·.id)).Sublist (tree.listed id) := by
  unfold references held sought listed
  cases declared : tree.declaration? id with
  | none => exact .refl _
  | some declaration =>
    cases declaration with
    | reexport decl => exact absurd declared (unshared.closed id decl)
    | impl decl =>
      simp only [List.append_nil, Option.map_some, Option.getD_some, Declaration.listed]
      split
      · rw [Role.map_id_references]
      · exact List.nil_sublist _
    | _ =>
      simp [Declaration.listed, Role.map_id_references]

/-- What an entry is referred to for tells the reference. -/
theorem Unshared.eq_of_id_eq (unshared : tree.Unshared) (refers : reference ∈ tree.references id)
    (refers' : reference' ∈ tree.references id') (same : reference.id = reference'.id) :
    reference = reference' := by
  have listed := (unshared.references_sublist id).subset (List.mem_map_of_mem refers)
  have listed' := (unshared.references_sublist id').subset (List.mem_map_of_mem refers')
  cases unshared.apart id id' reference.id listed (same ▸ listed')
  have distinct := (unshared.once id).sublist (unshared.references_sublist id)
  exact List.inj_on_of_nodup_map distinct refers refers' same

theorem Unshared.id_ne_rootId (unshared : tree.Unshared) (refers : reference ∈ tree.references id) :
    reference.id ≠ rootId := by
  intro same
  have listed := (unshared.references_sublist id).subset (List.mem_map_of_mem refers)
  exact unshared.rootless id (same ▸ listed)

/-! ## Due tasks without sharing -/

/-- The further tasks of a plan are made from the numbers that they ask for. -/
theorem next_eq_map {asking : Task} (accepted : Accepted (tree.plan asking).actions) :
    ∃ (make : Int → Task) (ids : List Int), (∀ id, (make id).id = id) ∧
      (tree.plan asking).next = ids.map make := by
  have none (tasks : List Task) (last : tasks = []) :
      ∃ (make : Int → Task) (ids : List Int), (∀ id, (make id).id = id) ∧ tasks = ids.map make :=
    ⟨fun id => ⟨id, [], .listed id⟩, [], fun _ => rfl, last⟩
  cases answer_of_accepted accepted with
  | idle _ _ _ last => exact none _ last
  | block _ _ _ same => exact none _ (same ▸ implPlan_next)
  | splice _ _ same => exact ⟨_, _, fun _ => rfl, congrArg Plan.next same⟩
  | @item givenName entry _ _ same =>
    rw [same]
    obtain ⟨deprecated, declaration⟩ := entry
    cases declaration with
    | module | struct | union | enum => exact ⟨_, _, fun _ => rfl, rfl⟩
    | reexport decl =>
      simp only [itemPlan, reexportPlan]
      cases decl.target with
      | none => exact none _ rfl
      | some target => exact ⟨fun id => ⟨id, _, _⟩, [target], fun _ => rfl, rfl⟩
    | _ => exact none _ rfl

/-- So what they ask for tells them apart. -/
theorem eq_of_mem_next {asking : Task} (accepted : Accepted (tree.plan asking).actions)
    (member : task ∈ (tree.plan asking).next) (member' : task' ∈ (tree.plan asking).next)
    (same : task.id = task'.id) : task = task' := by
  obtain ⟨make, ids, asks, next⟩ := next_eq_map accepted
  rw [next] at member member'
  obtain ⟨id, _, rfl⟩ := List.mem_map.mp member
  obtain ⟨id', _, rfl⟩ := List.mem_map.mp member'
  rw [asks, asks] at same
  rw [same]

theorem Due.stems (due : tree.Due task) :
    ∃ id, ∃ reference ∈ tree.sought id, Stems reference task := by
  cases due with
  | root asked => exact ⟨rootId, stems_of_root asked⟩
  | next _ accepted asked => exact ⟨_, stems_of_next accepted asked⟩

theorem Due.id_ne_rootId (unshared : tree.Unshared) (due : tree.Due task) : task.id ≠ rootId := by
  obtain ⟨id, reference, sought, stems⟩ := due.stems
  exact stems.id_eq ▸ unshared.id_ne_rootId (List.mem_append_right _ sought)

/-- Tasks for one entry stem from one reference, so the same entry asks for them. -/
theorem Unshared.asker_eq (unshared : tree.Unshared)
    (sought : ∃ reference ∈ tree.sought id, Stems reference task)
    (sought' : ∃ reference ∈ tree.sought id', Stems reference task') (same : task.id = task'.id) :
    id = id' := by
  obtain ⟨reference, member, stems⟩ := sought
  obtain ⟨reference', member', stems'⟩ := sought'
  have ids : reference.id = reference'.id := by rw [stems.id_eq, stems'.id_eq, same]
  cases unshared.eq_of_id_eq (List.mem_append_right _ member) (List.mem_append_right _ member') ids
  exact (referrer_of_sought member).1.symm.trans (referrer_of_sought member').1

/-- No two due tasks ask for one entry. -/
theorem Due.unique (unshared : tree.Unshared) (due : tree.Due task) (due' : tree.Due task')
    (same : task.id = task'.id) : task = task' := by
  induction due generalizing task' with
  | root asked =>
    cases due' with
    | root asked' =>
      obtain ⟨id, _, rfl⟩ := List.mem_map.mp asked
      obtain ⟨id', _, rfl⟩ := List.mem_map.mp asked'
      exact congrArg (Task.mk · [] (.listed rootId)) same
    | next due' accepted' asked' =>
      have root := unshared.asker_eq (stems_of_root asked) (stems_of_next accepted' asked') same
      exact absurd root.symm (due'.id_ne_rootId unshared)
  | next due accepted asked ih =>
    cases due' with
    | root asked' =>
      have root := unshared.asker_eq (stems_of_next accepted asked) (stems_of_root asked') same
      exact absurd root (due.id_ne_rootId unshared)
    | next due' accepted' asked' =>
      have askers := unshared.asker_eq (stems_of_next accepted asked)
        (stems_of_next accepted' asked') same
      cases ih due' askers
      exact eq_of_mem_next accepted asked asked' same

/-- What is asked for by a due task is no part of anything. -/
theorem Due.not_held (unshared : tree.Unshared) (due : tree.Due task)
    (held : reference ∈ tree.held id) : reference.id ≠ task.id := by
  intro same
  obtain ⟨id', reference', sought, stems⟩ := due.stems
  cases unshared.eq_of_id_eq (List.mem_append_left _ held) (List.mem_append_right _ sought)
    (same.trans stems.id_eq.symm)
  exact (referrer_of_sought sought).2 (leads_of_held held).2.1

theorem exists_held_of_attended (attended : reference ∈ tree.attended id) :
    ∃ id', reference ∈ tree.held id' := by
  obtain ⟨part, held, inside⟩ := List.mem_flatMap.mp attended
  unfold within at inside
  split at inside
  · rcases List.mem_cons.mp inside with rfl | inner
    · exact ⟨id, held⟩
    · exact ⟨part.id, inner⟩
  · cases List.mem_singleton.mp inside
    exact ⟨id, held⟩

variable {answered : List Task} {final : WalkState}

/-- Nothing that is due is visited before its task is answered. -/
theorem Due.answered_of_visited (unshared : tree.Unshared)
    (run : Run tree .start tree.rootTasks answered final) (due : tree.Due task)
    (seen : task.id ∈ final.visited) : task ∈ answered := by
  rcases run.mem_visited.mp seen with start | ⟨other, member, visits⟩
  · exact absurd (List.mem_singleton.mp start) (due.id_ne_rootId unshared)
  · have due' := run.due (onDuty_start tree) member
    have heeded := heeds_of_visit (run.accepted member) visits
    obtain ⟨_, _, _, stems⟩ := due'.stems
    obtain ⟨reference, inside, same⟩ := (attends_plan stems heeded).visits _ visits
    rcases List.mem_cons.mp inside with rfl | attended
    · cases due'.unique unshared due (stems.id_eq.symm.trans same)
      exact member
    · obtain ⟨_, held⟩ := exists_held_of_attended attended
      exact absurd same (due.not_held unshared held)

/-- A walk that ends well answers exactly the due tasks. -/
theorem mem_answered_iff_due (unshared : tree.Unshared)
    (run : Run tree .start tree.rootTasks answered final) : task ∈ answered ↔ tree.Due task := by
  constructor
  · exact run.due (onDuty_start tree)
  · intro due
    induction due with
    | root asked =>
      rcases run.answered_or_visited asked with done | seen
      · exact done
      · exact Due.answered_of_visited unshared run (.root asked) seen
    | next due accepted asked ih =>
      rcases run.next_answered_or_visited ih asked with done | seen
      · exact done
      · exact Due.answered_of_visited unshared run (.next due accepted asked) seen

/-- A tree without sharing that can be flattened has compatible tasks. -/
theorem compatible_of_run (unshared : tree.Unshared)
    (run : Run tree .start tree.rootTasks answered final) : tree.Compatible := by
  have answers {task : Task} : task ∈ answered ↔ tree.Due task := mem_answered_iff_due unshared run
  have ids := run.nodup_ids
  rw [emissions, List.map_flatMap] at ids
  constructor
  case accepted => exact fun task due => run.accepted (answers.mpr due)
  case distinct => exact fun task due => (List.nodup_flatMap.mp ids).1 task (answers.mpr due)
  case apart =>
    intro task task' due due' different told member told' member' same
    exact different (eq_of_nodup_flatMap ids (answers.mpr due) (answers.mpr due')
      (List.mem_map_of_mem member) (same ▸ List.mem_map_of_mem member'))

/-- A tree without sharing can be flattened exactly if its due tasks are compatible. -/
theorem isOk_iff_compatible (unshared : tree.Unshared) :
    (∃ s, Snapshot.ofTree? tree = .ok s) ↔ tree.Compatible := by
  constructor
  · rintro ⟨s, translated⟩
    obtain ⟨answered, final, run, rfl⟩ := ofTree?_eq_ok_iff.mp translated
    exact compatible_of_run unshared run
  · intro compatible
    obtain ⟨final, walked⟩ := (onDuty_start tree).ends compatible
    obtain ⟨answered, run⟩ := walk_eq_ok_iff.mp walked
    exact ⟨_, ofTree?_eq_ok_iff.mpr ⟨answered, final, run, rfl⟩⟩

/-- Its snapshot holds what the due tasks publish. -/
theorem get?_eq_some_iff_due (unshared : tree.Unshared) {s : Snapshot}
    (translated : Snapshot.ofTree? tree = .ok s) {id : Identity} {item : Item} :
    s.get? id = some item ↔ ∃ task, tree.Due task ∧
      ∃ told ∈ publications (tree.plan task).actions, told.entry = (id, item) := by
  obtain ⟨answered, final, run, rfl⟩ := ofTree?_eq_ok_iff.mp translated
  simp only [Snapshot.get?_eq_some_iff, run.mem_entries, emissions, List.mem_flatMap,
    mem_answered_iff_due unshared run]
  constructor
  · rintro ⟨told, ⟨task, due, member⟩, same⟩
    exact ⟨task, due, told, member, same⟩
  · rintro ⟨task, due, told, member, same⟩
    exact ⟨told, ⟨task, due, member⟩, same⟩

/-- Without sharing, the order of no list makes a difference. -/
theorem sameOutcome_of_unshared (unshared : tree.Unshared) (same : tree.Reordered free other) :
    tree.SameOutcome other := by
  have unshared' := unshared.reordered same
  constructor
  case translated =>
    rw [isOk_iff_compatible unshared, isOk_iff_compatible unshared']
    exact ⟨.reordered same, .reordered same.symm⟩
  case equal =>
    intro s s' translated translated' id
    refine Option.ext fun item => ?_
    rw [get?_eq_some_iff_due unshared translated, get?_eq_some_iff_due unshared' translated']
    have told (task : Task) := publications_perm (plan_reordered same task).actions
    constructor
    · rintro ⟨task, due, publication, member, made⟩
      exact ⟨task, due.reordered same, publication, (told task).mem_iff.mp member, made⟩
    · rintro ⟨task, due, publication, member, made⟩
      exact ⟨task, due.reordered same.symm, publication, (told task).mem_iff.mpr member, made⟩

end Unshared

end ApiDelta.Tree
