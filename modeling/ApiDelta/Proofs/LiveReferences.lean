import ApiDelta.Proofs.Refusals

/-!
What becomes of the references in a tree. A reference is live if the root leads to the entry that it
starts from. A tree that is refused, and not for a collision, is refused for a live reference that does
not fit. In a tree that is not refused, all live references fit but those that the walk met too late: when
it came to them, it had visited what they lead to.
-/
namespace ApiDelta.Tree

/-- A reference is live if the root leads to the entry that it starts from. -/
def Live (tree : Tree) (reference : Reference) : Prop :=
  tree.Reachable reference.referrer ∧ reference ∈ tree.references reference.referrer

/-- An entry has a place if a live reference leads to it and its declaration can play the role. -/
def Placed (tree : Tree) (id : Int) : Prop :=
  ∃ reference, tree.Live reference ∧ reference.id = id ∧
    ∃ declaration, tree.declaration? id = some declaration ∧ reference.role.Admits declaration

/-- Along a walk, every pending task stems from a live reference. -/
structure Grounded (tree : Tree) (state : WalkState) (pending : List Task) : Prop where
  tracks : tree.Tracks state pending
  stems : ∀ task ∈ pending, ∃ reference, tree.Live reference ∧ Stems reference task

section Walks

variable {tree : Tree} {id : Int} {reference : Reference} {state middle : WalkState} {task : Task}
  {pending : List Task}

theorem live_of_references (reachable : tree.Reachable id) (refers : reference ∈ tree.references id) :
    tree.Live reference := by
  have start := referrer_of_references refers
  exact ⟨start ▸ reachable, start ▸ refers⟩

theorem held_subset_attended : tree.held id ⊆ tree.attended id := by
  intro part held
  refine List.mem_flatMap.mpr ⟨part, held, ?_⟩
  unfold within
  split <;> exact List.mem_cons_self

/-- What a plan goes through is live if the root leads to its entry. -/
theorem live_of_attended (reachable : tree.Reachable id) (attended : reference ∈ tree.attended id) :
    tree.Live reference ∧ reference.role.IsPart := by
  obtain ⟨part, held, inside⟩ := List.mem_flatMap.mp attended
  obtain ⟨_, isPart, leads⟩ := leads_of_held held
  have live := live_of_references reachable (List.mem_append_left _ held)
  unfold within at inside
  split at inside
  · rcases List.mem_cons.mp inside with rfl | inner
    · exact ⟨live, isPart⟩
    · exact ⟨live_of_references (reachable.tail leads) (List.mem_append_left _ inner),
        (leads_of_held inner).2.1⟩
  · cases List.mem_singleton.mp inside
    exact ⟨live, isPart⟩

/-- If all that a plan goes through fits, it goes through all that this refers to. -/
theorem references_of_attended (fits : ∀ reference ∈ tree.attended id, tree.Fits reference)
    (attended : reference ∈ tree.attended id) :
    tree.references reference.id ⊆ tree.attended id := by
  obtain ⟨part, held, inside⟩ := List.mem_flatMap.mp attended
  have isPart := (leads_of_held held).2.1
  have partFits := fits part (held_subset_attended held)
  unfold within at inside
  split at inside
  · rename_i variant
    have deeper : tree.held part.id ⊆ tree.attended id := by
      intro inner member
      refine List.mem_flatMap.mpr ⟨part, held, ?_⟩
      simp only [within, variant]
      exact List.mem_cons_of_mem _ member
    rcases List.mem_cons.mp inside with rfl | inner
    · rw [references, sought_eq_nil_of_fits partFits isPart, List.append_nil]
      exact deeper
    · have innerFits := fits reference attended
      rw [references, sought_eq_nil_of_fits innerFits (leads_of_held inner).2.1,
        held_eq_nil_of_held partFits isPart inner innerFits]
      exact List.nil_subset _
  · rename_i single
    cases List.mem_singleton.mp inside
    rw [references, sought_eq_nil_of_fits partFits isPart, held_eq_nil_of_fits partFits isPart single]
    exact List.nil_subset _

/-- The root asks for what its module refers to. -/
theorem stems_of_root (asked : task ∈ tree.rootTasks) :
    ∃ reference ∈ tree.sought rootId, Stems reference task := by
  have sought : tree.sought rootId = Role.item.references rootId tree.root.items := by
    simp only [Tree.sought, declaration?_rootId]
  rw [sought]
  exact (asks_listedTasks [] rootId tree.root.items).stems task asked

theorem grounded_start (tree : Tree) : tree.Grounded .start tree.rootTasks where
  tracks := tracks_start tree
  stems := by
    intro task member
    obtain ⟨reference, sought, stems⟩ := stems_of_root member
    exact ⟨reference, live_of_references .refl (List.mem_append_right _ sought), stems⟩

theorem Grounded.drop (grounded : tree.Grounded state (task :: pending))
    (seen : task.id ∈ state.visited) : tree.Grounded state pending where
  tracks := grounded.tracks.drop seen
  stems := fun other member => grounded.stems other (List.mem_cons_of_mem _ member)

/-- A task that is not heeded asks for nothing further. -/
theorem next_of_passed (accepted : Accepted (tree.plan task).actions) (passed : ¬tree.Heeds task) :
    (tree.plan task).next = [] := by
  cases answer_of_accepted accepted with
  | idle _ _ _ last => exact last
  | item _ heeded | splice heeded | block _ heeded => exact absurd heeded passed

/-- The further tasks of a plan stem from what its entry refers to. -/
theorem stems_of_next {asking : Task} (accepted : Accepted (tree.plan asking).actions)
    (asked : task ∈ (tree.plan asking).next) :
    ∃ reference ∈ tree.sought asking.id, Stems reference task := by
  by_cases heeded : tree.Heeds asking
  · exact (asks_plan accepted heeded).stems task asked
  · rw [next_of_passed accepted heeded] at asked
    cases asked

theorem ids_listedTasks (path : List String) (referrer : Int) (ids : List Int) :
    (listedTasks path referrer ids).map Task.id = (Role.item.references referrer ids).map Reference.id := by
  simp [listedTasks, Role.references]

/-- A plan asks for what its entry refers to and is no part, each as often as it is referred to. -/
theorem ids_next (accepted : Accepted (tree.plan task).actions) (heeded : tree.Heeds task) :
    (tree.plan task).next.map Task.id = (tree.sought task.id).map Reference.id := by
  cases answer_of_accepted accepted with
  | idle passed => exact absurd heeded passed
  | splice _ declared same =>
    simp only [same, sought, declared, ids_listedTasks]
  | block _ _ found same =>
    simp only [same, sought, declared_of_found found, implPlan_next, List.map_nil]
  | @item givenName entry _ found same =>
    obtain ⟨deprecated, declaration⟩ := entry
    simp only [same, sought, declared_of_found found]
    cases declaration with
    | module decl => exact ids_listedTasks _ _ _
    | reexport decl =>
      cases aims : decl.target <;> simp [itemPlan, reexportPlan, aims, Role.references]
    | struct | union | enum =>
      simp [itemPlan, structPlan, unionPlan, enumPlan, typePlan, Role.references]
    | _ => rfl

theorem Grounded.answer (grounded : tree.Grounded state (task :: pending))
    (performed : state.performAll (tree.plan task).actions = .ok middle) :
    tree.Grounded middle ((tree.plan task).next ++ pending) where
  tracks := grounded.tracks.answer performed
  stems := by
    intro other member
    have accepted := WalkState.accepted_of_performAll performed
    rcases List.mem_append.mp member with new | old
    · by_cases heeded : tree.Heeds task
      · have reachable := grounded.tracks.asked task List.mem_cons_self heeded
        obtain ⟨reference, sought, stems⟩ := (asks_plan accepted heeded).stems other new
        exact ⟨reference, live_of_references reachable (List.mem_append_right _ sought), stems⟩
      · rw [next_of_passed accepted heeded] at new
        cases new
    · exact grounded.stems other (List.mem_cons_of_mem _ old)

/-- Actions are broken off by a collision or at a refusal. -/
theorem WalkState.refused_of_performAll {actions : List Action} {stop : Stop}
    (performed : state.performAll actions = .error stop) :
    (∃ identity, stop.problem = .collision identity) ∨ .refuse stop.problem ∈ actions := by
  induction actions generalizing state with
  | nil => cases performed
  | cons action rest ih =>
    simp only [performAll] at performed
    split at performed
    · rename_i first
      cases performed
      cases action with
      | visit | skip => cases first
      | publish publication =>
        simp only [perform] at first
        split at first
        · cases first
        · cases first
          exact .inl ⟨publication.id, rfl⟩
      | refuse problem =>
        cases first
        exact .inr List.mem_cons_self
    · rcases ih performed with collision | refused
      · exact .inl collision
      · exact .inr (List.mem_cons_of_mem _ refused)

/-- A walk is broken off by a collision, or by the fault of a live reference that does not fit. -/
theorem Grounded.blames {stop : Stop} (grounded : tree.Grounded state pending)
    (walked : tree.walk state pending = .error stop) :
    (∃ identity, stop.problem = .collision identity) ∨
      ∃ reference, tree.Live reference ∧ ¬tree.Fits reference ∧
        stop.problem = tree.fault reference := by
  fun_induction walk tree state pending with
  | case1 => cases walked
  | case2 state task pending seen ih => exact ih (grounded.drop seen) walked
  | case3 state task pending fresh other performed =>
    cases walked
    obtain ⟨origin, live, stems⟩ := grounded.stems task List.mem_cons_self
    rcases WalkState.refused_of_performAll performed with collision | refused
    · exact .inl collision
    · by_cases heeded : tree.Heeds task
      · have reachable := grounded.tracks.asked task List.mem_cons_self heeded
        obtain ⟨reference, inside, unfit, fault⟩ := (attends_plan stems heeded).blames _ refused
        rcases List.mem_cons.mp inside with rfl | attended
        · exact .inr ⟨_, live, unfit, fault⟩
        · exact .inr ⟨_, (live_of_attended reachable attended).1, unfit, fault⟩
      · exact absurd refused ((fits_of_passed stems heeded).2 _)
  | case4 state task pending fresh middle performed ih => exact ih (grounded.answer performed) walked

/-- A walk has dealt with a reference that fits. One that is not to a part may also lead to an entry that
has been visited for another reason, or wait for a task that is still to look at it. -/
def Handled (tree : Tree) (state : WalkState) (pending : List Task) (reference : Reference) : Prop :=
  tree.Fits reference ∨ ¬reference.role.IsPart ∧
    (reference.id ∈ state.visited ∨ ∃ task ∈ pending, Stems reference task)

/-- When its task is gone, a reference has to fit or to lead to what has been visited. -/
theorem Handled.advance {new : List Task} (handled : tree.Handled state (task :: pending) reference)
    (grows : ∀ id ∈ state.visited, id ∈ middle.visited)
    (gone : Stems reference task → tree.Fits reference ∨ task.id ∈ middle.visited) :
    tree.Handled middle (new ++ pending) reference := by
  rcases handled with fits | ⟨whole, met | ⟨other, member, stems⟩⟩
  · exact .inl fits
  · exact .inr ⟨whole, .inl (grows _ met)⟩
  · rcases List.mem_cons.mp member with rfl | later
    · rcases gone stems with fits | seen
      · exact .inl fits
      · exact .inr ⟨whole, .inl (stems.id_eq ▸ seen)⟩
    · exact .inr ⟨whole, .inr ⟨other, List.mem_append_right _ later, stems⟩⟩

/-- Along a walk, what has been visited has a place, and its references have been dealt with. -/
structure Settled (tree : Tree) (state : WalkState) (pending : List Task) : Prop where
  grounded : tree.Grounded state pending
  placed : ∀ id ∈ state.visited, id = rootId ∨ tree.Placed id
  handled : ∀ id ∈ state.visited, ∀ reference ∈ tree.references id,
    tree.Handled state pending reference

theorem settled_start (tree : Tree) : tree.Settled .start tree.rootTasks where
  grounded := grounded_start tree
  placed := fun id seen => .inl (List.mem_singleton.mp seen)
  handled := by
    intro id seen reference refers
    cases List.mem_singleton.mp seen
    have asked : tree.references rootId = Role.item.references rootId tree.root.items := by
      simp only [references, held, sought, declaration?_rootId, List.nil_append]
    rw [asked] at refers
    obtain ⟨_, _, rfl⟩ := Role.mem_references.mp refers
    exact .inr ⟨not_false, .inr ((asks_listedTasks [] rootId tree.root.items).complete _ refers)⟩

theorem Settled.drop (settled : tree.Settled state (task :: pending)) (seen : task.id ∈ state.visited) :
    tree.Settled state pending where
  grounded := settled.grounded.drop seen
  placed := settled.placed
  handled := by
    intro id visited reference refers
    have handled : tree.Handled state ([] ++ pending) reference :=
      (settled.handled id visited reference refers).advance (fun _ met => met) fun _ => .inr seen
    exact handled

theorem placed_of_fits (live : tree.Live reference) (fits : tree.Fits reference)
    (present : (tree.entry? reference.id).isSome) : tree.Placed reference.id := by
  obtain ⟨entry, found⟩ := Option.isSome_iff_exists.mp present
  have declared := declared_of_found found
  exact ⟨reference, live, rfl, _, declared, (fits_of_declared declared).mp fits⟩

/-- A task that is heeded, and not refused, asks for an entry that is there. -/
theorem present_of_heeded (accepted : Accepted (tree.plan task).actions) (heeded : tree.Heeds task) :
    (tree.entry? task.id).isSome := by
  cases answer_of_accepted accepted with
  | idle passed => exact absurd heeded passed
  | item _ _ found | block _ _ found => exact Option.isSome_of_eq_some found
  | splice _ declared =>
    obtain ⟨entry, found, _⟩ := Option.map_eq_some_iff.mp declared
    exact Option.isSome_of_eq_some found

theorem Settled.heed (settled : tree.Settled state (task :: pending)) (heeded : tree.Heeds task)
    (performed : state.performAll (tree.plan task).actions = .ok middle) :
    tree.Settled middle ((tree.plan task).next ++ pending) := by
  have accepted := WalkState.accepted_of_performAll performed
  have reachable := settled.grounded.tracks.asked task List.mem_cons_self heeded
  obtain ⟨origin, live, rooted⟩ := settled.grounded.stems task List.mem_cons_self
  have attends := attends_plan rooted heeded
  obtain ⟨originFits, fits⟩ := List.forall_mem_cons.mp (attends.fits accepted)
  have visited : ∀ id, id ∈ middle.visited ↔
      id ∈ state.visited ∨ .visit id ∈ (tree.plan task).actions :=
    fun _ => WalkState.mem_visited_performAll performed
  have begun : task.id ∈ middle.visited :=
    (visited _).mpr (.inr (covers_plan heeded accepted).begun)
  constructor
  case grounded => exact settled.grounded.answer performed
  case placed =>
    intro id seen
    rcases (visited id).mp seen with before | now
    · exact settled.placed id before
    · obtain ⟨reference, inside, rfl⟩ := attends.visits id now
      rcases List.mem_cons.mp inside with rfl | attended
      · exact .inr (placed_of_fits live originFits (rooted.id_eq ▸ present_of_heeded accepted heeded))
      · obtain ⟨live, isPart⟩ := live_of_attended reachable attended
        exact .inr ⟨reference, live, rfl, declared_of_fits (fits _ attended) isPart.isListed⟩
  case handled =>
    intro id seen reference refers
    rcases (visited id).mp seen with before | now
    · have grows : ∀ id ∈ state.visited, id ∈ middle.visited := fun id met => (visited id).mpr (.inl met)
      exact (settled.handled id before reference refers).advance grows fun _ => .inr begun
    · obtain ⟨outer, inside, rfl⟩ := attends.visits id now
      rcases List.mem_cons.mp inside with rfl | attended
      · rw [rooted.id_eq] at refers
        rcases List.mem_append.mp refers with part | sought
        · exact .inl (fits _ (held_subset_attended part))
        · obtain ⟨next, member, stems⟩ := (asks_plan accepted heeded).complete _ sought
          exact .inr ⟨(referrer_of_sought sought).2,
            .inr ⟨next, List.mem_append_left _ member, stems⟩⟩
      · exact .inl (fits _ (references_of_attended fits attended refers))

theorem Settled.pass (settled : tree.Settled state (task :: pending)) (passed : ¬tree.Heeds task)
    (performed : state.performAll (tree.plan task).actions = .ok middle) :
    tree.Settled middle ((tree.plan task).next ++ pending) := by
  have accepted := WalkState.accepted_of_performAll performed
  have unchanged : ∀ id, id ∈ middle.visited ↔ id ∈ state.visited := by
    intro id
    rw [WalkState.mem_visited_performAll performed]
    exact or_iff_left fun visits => passed (heeds_of_visit accepted visits)
  constructor
  case grounded => exact settled.grounded.answer performed
  case placed => exact fun id seen => settled.placed id ((unchanged id).mp seen)
  case handled =>
    intro id seen reference refers
    have grows : ∀ id ∈ state.visited, id ∈ middle.visited := fun id met => (unchanged id).mpr met
    exact (settled.handled id ((unchanged id).mp seen) reference refers).advance grows
      fun stems => .inl (fits_of_passed stems passed).1

theorem Settled.answer (settled : tree.Settled state (task :: pending))
    (performed : state.performAll (tree.plan task).actions = .ok middle) :
    tree.Settled middle ((tree.plan task).next ++ pending) := by
  by_cases heeded : tree.Heeds task
  · exact settled.heed heeded performed
  · exact settled.pass heeded performed

theorem Run.settled {final : WalkState} {answered : List Task}
    (run : Run tree state pending answered final) (settled : tree.Settled state pending) :
    tree.Settled final [] := by
  induction run with
  | done => exact settled
  | drop seen _ ih => exact ih (settled.drop seen)
  | answer _ performed _ ih => exact ih (settled.answer performed)

end Walks

/-! ## Whole trees -/

section Trees

variable {tree : Tree} {reference : Reference}

/-- In a tree that is not refused, a live reference fits, or it is not one to a part and leads to an entry
that has a place by another. -/
theorem fits_or_met_of_translated {s : Snapshot} (translated : Snapshot.ofTree? tree = .ok s)
    (live : tree.Live reference) : tree.Fits reference ∨
      ¬reference.role.IsPart ∧ (reference.id = rootId ∨ tree.Placed reference.id) := by
  obtain ⟨answered, final, run, rfl⟩ := ofTree?_eq_ok_iff.mp translated
  have settled := run.settled (settled_start tree)
  have seen := (settled.grounded.tracks.mem_visited_iff _).mpr live.1
  rcases settled.handled _ seen reference live.2 with fits | ⟨whole, met | ⟨_, none, _⟩⟩
  · exact .inl fits
  · exact .inr ⟨whole, settled.placed _ met⟩
  · cases none

/-- A tree is refused for a collision or for the fault of a live reference that does not fit. -/
theorem blamed_of_refused {problem : Problem} (refused : Snapshot.ofTree? tree = .error problem) :
    (∃ identity, problem = .collision identity) ∨
      ∃ reference, tree.Live reference ∧ ¬tree.Fits reference ∧ problem = tree.fault reference := by
  obtain ⟨stop, walked, rfl⟩ := ofTree?_eq_error_iff.mp refused
  exact (grounded_start tree).blames walked

end Trees

end ApiDelta.Tree
