import ApiDelta.Proofs.ClassifiedDelta
import ApiDelta.Proofs.Lockstep
import ApiDelta.Version.Advice

/-!
Edits in place. An edit that leaves the frames of a tree alone (flags of deprecation, signatures,
types, values, bounds and the like) cannot add or remove an item, move one to another owner, or decide
whether the tree is refused. So the diagnosis of such edits holds one modification for each item that
says something else than before, naming the attributes that do, and one notice for each item that has
become deprecated; and an item says something else only if the entry that it tells of was edited.
-/
namespace ApiDelta

namespace Tree

variable {old new : Tree} {s s' : Snapshot}

/-! ## Edits -/

/-- The second tree results from the first by edits in place: the same numbers lead to entries, and
each entry has kept its frame. -/
def EditedInPlace (old new : Tree) : Prop :=
  ∀ id, Option.Rel (fun entry entry' => entry.declaration.SameFrame id entry'.declaration)
    (old.entry? id) (new.entry? id)

theorem Declaration.renumber_same (declaration : Declaration) :
    declaration.renumber .same = declaration := by
  have listed : ∀ ids : List Int, ids.map Renumbering.same = ids := fun ids => List.map_id ids
  have aimed : ∀ id : Option Int, id.map Renumbering.same = id := fun id => by cases id <;> rfl
  cases declaration <;> simp only [renumber, listed, aimed]

theorem Problem.renumber_same (problem : Problem) : problem.renumber .same = problem := by
  have aimed : ∀ id : Option Int, id.map Renumbering.same = id := fun id => by cases id <;> rfl
  cases problem with
  | misplaced id kind place => cases place <;> rfl
  | _ => simp only [renumber, aimed, Renumbering.same_apply]

def inPlace (old new : Tree) : Pairing :=
  ⟨.same, old, new⟩

theorem EditedInPlace.framed (edited : old.EditedInPlace new) (id : Int) :
    (old.inPlace new).Framed id := by
  simpa only [Pairing.Framed, inPlace, Declaration.renumber_same, Renumbering.same_apply]
    using edited id

/-- Edits in place of an index, entry by entry. -/
theorem EditedInPlace.of_index
    (entries : List.Forall₂ (fun pair pair' : Int × Entry => pair'.1 = pair.1 ∧
      pair.2.declaration.SameFrame pair.1 pair'.2.declaration) old.index new.index) :
    old.EditedInPlace new := by
  intro id
  unfold entry?
  generalize old.index = index, new.index = index' at entries
  induction entries with
  | nil => exact .none
  | @cons pair pair' _ _ same _ ih =>
    obtain ⟨_, entry⟩ := pair
    obtain ⟨key, entry'⟩ := pair'
    obtain ⟨rfl, frame⟩ := same
    simp only [List.lookup_cons]
    cases here : id == key with
    | true =>
      rw [eq_of_beq here]
      exact .some frame
    | false => exact ih

/-- What an item tells of was not edited, deprecation apart: neither the entry itself nor, for an
enumeration, one of its variants. -/
structure Kept (old new : Tree) (id : Int) : Prop where
  itself : new.declaration? id = old.declaration? id
  variants : ∀ decl, old.declaration? id = some (.enum decl) →
    ∀ variant ∈ decl.variants, new.declaration? variant = old.declaration? variant

theorem Kept.untouched {source : Int} (kept : old.Kept new source) :
    (old.inPlace new).Untouched source := by
  have unedited : ∀ other, new.declaration? other = old.declaration? other →
      (old.inPlace new).Unedited other := by
    intro other same
    have asIs : Declaration.renumber .same = id := funext Declaration.renumber_same
    rwa [Pairing.Unedited, inPlace, asIs, Option.map_id]
  exact ⟨unedited source kept.itself, fun decl declared variant member =>
    unedited variant (kept.variants decl declared variant member)⟩

/-! ## Items before and after -/

/-- Two items under one identity tell of one entry, each as its tree has it, and agree if nothing was
edited there. -/
structure Traced (old new : Tree) (id : Identity) (source : Int) (was now : Item) : Prop where
  before : old.Portrays ⟨source, id, was⟩
  after : new.Portrays ⟨source, id, now⟩
  owner : now.owner = was.owner
  itemClass : now.itemClass = was.itemClass
  kept : old.Kept new source → was.Agrees now

theorem Traced.of_matches {publication publication' : Publication}
    (same : publication.Matches (old.inPlace new) publication') (portrays : old.Portrays publication)
    (portrays' : new.Portrays publication') :
    Traced old new publication.id publication.source publication.item publication'.item where
  before := portrays
  after := by
    have here : (⟨publication.source, publication.id, publication'.item⟩ : Publication) =
        publication' := (Publication.mk.injEq ..).mpr ⟨same.source.symm, same.id.symm, rfl⟩
    exact here ▸ portrays'
  owner := same.item.owner
  itemClass := same.item.itemClass
  kept := fun kept =>
    ⟨same.item.name.symm, same.item.owner.symm, (same.item.form kept.untouched).symm⟩

private theorem exists_match {α : Type} {R : α → α → Prop} {items items' : List α}
    (matched : List.Forall₂ R items items') {item : α} (member : item ∈ items) :
    ∃ item' ∈ items', R item item' := by
  induction matched with
  | nil => cases member
  | cons first _ ih =>
    rcases List.mem_cons.mp member with rfl | later
    · exact ⟨_, List.mem_cons_self, first⟩
    · obtain ⟨item', inside, same⟩ := ih later
      exact ⟨item', List.mem_cons_of_mem _ inside, same⟩

/-- After edits in place, each item of one snapshot has its counterpart in the other. -/
theorem traced_of_translated (edited : old.EditedInPlace new)
    (translated : Snapshot.ofTree? old = .ok s) (translated' : Snapshot.ofTree? new = .ok s') :
    (∀ id was, s.get? id = some was →
      ∃ source now, s'.get? id = some now ∧ Traced old new id source was now) ∧
    ∀ id now, s'.get? id = some now →
      ∃ source was, s.get? id = some was ∧ Traced old new id source was now := by
  cases parallel_of_framed edited.framed with
  | stopped walked =>
    have refused := ofTree?_eq_error_iff.mpr ⟨_, walked, rfl⟩
    exact absurd (translated.symm.trans refused) nofun
  | @ended answered answered' final final' run run' emitted =>
    have reached := ofTree?_eq_ok_iff.mpr ⟨_, _, run, rfl⟩
    have reached' := ofTree?_eq_ok_iff.mpr ⟨_, _, run', rfl⟩
    cases translated.symm.trans reached
    cases translated'.symm.trans reached'
    constructor
    · intro id was before
      obtain ⟨publication, told, same⟩ := run.mem_entries.mp (Snapshot.get?_eq_some_iff.mp before)
      cases same
      obtain ⟨publication', told', same⟩ := exists_match emitted told
      have after := run'.mem_entries.mpr ⟨publication', told', rfl⟩
      rw [Publication.entry, same.id] at after
      exact ⟨_, _, Snapshot.get?_eq_some_iff.mpr after,
        .of_matches same (run.sourced told).2 (run'.sourced told').2⟩
    · intro id now after
      obtain ⟨publication', told', same⟩ := run'.mem_entries.mp (Snapshot.get?_eq_some_iff.mp after)
      cases same
      obtain ⟨publication, told, same⟩ := exists_match emitted.flip told'
      have before := run.mem_entries.mpr ⟨publication, told, rfl⟩
      rw [Publication.entry, ← same.id] at before
      refine ⟨publication.source, publication.item, Snapshot.get?_eq_some_iff.mpr before, ?_⟩
      rw [same.id]
      exact .of_matches same (run.sourced told).2 (run'.sourced told').2

/-- Edits in place do not decide whether a tree is refused, nor why. -/
theorem refused_iff_of_edited (edited : old.EditedInPlace new) (problem : Problem) :
    Snapshot.ofTree? old = .error problem ↔ Snapshot.ofTree? new = .error problem := by
  cases parallel_of_framed edited.framed with
  | ended run run' =>
    have reached := ofTree?_eq_ok_iff.mpr ⟨_, _, run, rfl⟩
    have reached' := ofTree?_eq_ok_iff.mpr ⟨_, _, run', rfl⟩
    constructor
    · exact fun refused => absurd (reached.symm.trans refused) nofun
    · exact fun refused => absurd (reached'.symm.trans refused) nofun
  | stopped walked walked' same =>
    rw [inPlace, Problem.renumber_same] at same
    have refused := ofTree?_eq_error_iff.mpr ⟨_, walked, rfl⟩
    have refused' := ofTree?_eq_error_iff.mpr ⟨_, walked', same⟩
    exact (Eq.congr_left refused).trans (Eq.congr_left refused').symm

/-! ## Reports -/

/-- What a report says of the items that two snapshots share: which attributes of an item differ, and
that an item has become deprecated. -/
inductive Edit (s s' : Snapshot) : Change → Prop where
  | modified {id : Identity} {was now : Item} {changed : List String} (before : s.get? id = some was)
      (after : s'.get? id = some now) (differ : changed ≠ [])
      (names : ∀ name, name ∈ changed ↔ was.attribute? name ≠ now.attribute? name)
      (sorted : changed.Pairwise (· < ·)) :
      Edit s s' (.modified id was now (was.isBreakingModification now) changed)
  | deprecated {id : Identity} {was now : Item} (before : s.get? id = some was)
      (after : s'.get? id = some now) (unflagged : was.deprecated = false)
      (flagged : now.deprecated = true) : Edit s s' (.deprecated id now)

/-- A report of edits where they were made: nothing comes or goes or changes hands, the changes are
those of items, each told once, and an item has no other changes than the entry that it tells of. -/
structure ReportsInPlace (old new : Tree) (s s' : Snapshot) : Prop where
  ids : ∀ id, id ∈ s'.ids ↔ id ∈ s.ids
  owners : ∀ id, (s'.get? id).map Item.owner = (s.get? id).map Item.owner
  exact : ∀ change, change ∈ (Diagnosis.between s s').changes ↔ Edit s s' change
  once : (Diagnosis.between s s').changes.Pairwise fun a b => a.key < b.key
  traced : ∀ id was now, s.get? id = some was → s'.get? id = some now →
    ∃ source, Traced old new id source was now

/-- Where no identity changes hands and no item its class, the classified changes are the edits. -/
theorem classified_iff_edit {change : Change}
    (owners : ∀ id, (s'.get? id).map Item.owner = (s.get? id).map Item.owner)
    (classes : ∀ id was now, s.get? id = some was → s'.get? id = some now →
      now.itemClass = was.itemClass) : Diagnosis.Classified s s' change ↔ Edit s s' change := by
  have differences {id : Identity} {was now : Item} (before : s.get? id = some was)
      (after : s'.get? id = some now) : was.differences now = Item.changedAttributes was now :=
    if_pos (classes id was now before after).symm
  have unchanged {id : Identity} {was now : Item} (before : s.get? id = some was)
      (after : s'.get? id = some now) : Item.changedAttributes was now = [] ↔ was.Agrees now :=
    Item.changedAttributes_eq_nil_iff (classes id was now before after).symm
  constructor
  · intro classified
    cases classified with
    | @removed id item held gone =>
      have kept := owners id
      simp [held, gone] at kept
    | @added id item held absent =>
      have kept := owners id
      simp [held, absent] at kept
    | deprecated before after flagged unflagged => exact .deprecated before after unflagged flagged
    | @modified id was now before after differ =>
      rw [differences before after]
      exact .modified before after (mt (unchanged before after).mp differ)
        (fun _ => Item.mem_changedAttributes) (Item.changedAttributes_increasing was now)
  · intro edit
    cases edit with
    | @modified id was now changed before after differ names sorted =>
      have same : changed = Item.changedAttributes was now :=
        sorted.eq_of_mem_iff (Item.changedAttributes_increasing was now)
          fun name => (names name).trans Item.mem_changedAttributes.symm
      have differ : ¬was.Agrees now := fun agree =>
        differ (same.trans ((unchanged before after).mpr agree))
      rw [same, ← differences before after]
      exact .modified before after differ
    | deprecated before after unflagged flagged => exact .deprecated before after flagged unflagged

theorem reportsInPlace_of_translated (edited : old.EditedInPlace new)
    (translated : Snapshot.ofTree? old = .ok s) (translated' : Snapshot.ofTree? new = .ok s') :
    ReportsInPlace old new s s' := by
  obtain ⟨onward, back⟩ := traced_of_translated edited translated translated'
  have traced : ∀ id was now, s.get? id = some was → s'.get? id = some now →
      ∃ source, Traced old new id source was now := by
    intro id was now before after
    obtain ⟨source, other, found, traced⟩ := onward id was before
    rw [after] at found
    cases found
    exact ⟨source, traced⟩
  have owners : ∀ id, (s'.get? id).map Item.owner = (s.get? id).map Item.owner := by
    intro id
    cases before : s.get? id with
    | none =>
      cases after : s'.get? id with
      | none => rfl
      | some now =>
        obtain ⟨_, was, found, _⟩ := back id now after
        rw [before] at found
        cases found
    | some was =>
      obtain ⟨_, now, after, traced⟩ := onward id was before
      rw [after, Option.map_some, Option.map_some, traced.owner]
  have classes : ∀ id was now, s.get? id = some was → s'.get? id = some now →
      now.itemClass = was.itemClass := by
    intro id was now before after
    obtain ⟨_, traced⟩ := traced id was now before after
    exact traced.itemClass
  constructor
  case ids =>
    intro id
    have present := congrArg Option.isSome (owners id)
    rw [Option.isSome_map, Option.isSome_map] at present
    rw [Snapshot.mem_ids_iff, Snapshot.mem_ids_iff, ← Option.isSome_iff_exists,
      ← Option.isSome_iff_exists, present]
  case owners => exact owners
  case exact => exact fun change => Diagnosis.mem_between.trans (classified_iff_edit owners classes)
  case once => exact Diagnosis.between_increasing s s'
  case traced => exact traced

/-- Where no declaration was edited, nothing that callers rely on has changed. -/
theorem ReportsInPlace.patch (reports : ReportsInPlace old new s s')
    (same : ∀ id, new.declaration? id = old.declaration? id) :
    (Diagnosis.between s s').isBreaking = false ∧ (Diagnosis.between s s').bump = .patch := by
  have notices : ∀ change ∈ (Diagnosis.between s s').changes, change.kind = .deprecated := by
    intro change member
    cases (reports.exact change).mp member with
    | @modified id was now changed before after differ names =>
      obtain ⟨source, traced⟩ := reports.traced id was now before after
      have agree := traced.kept ⟨same source, fun _ _ variant _ => same variant⟩
      refine absurd (List.eq_nil_iff_forall_not_mem.mpr fun name listed => ?_) differ
      exact (names name).mp listed (by rw [Item.attribute?, Item.attribute?, agree.attributes])
    | deprecated => rfl
  have harmless : (Diagnosis.between s s').isBreaking = false := by
    refine List.any_eq_false.mpr fun change member => ?_
    cases change with
    | deprecated => exact Bool.false_ne_true
    | removed | modified | added => cases notices _ member
  have closed : (Diagnosis.between s s').containsAdditions = false := by
    refine List.any_eq_false.mpr fun change member => ?_
    rw [notices change member]
    decide
  refine ⟨harmless, ?_⟩
  rw [Diagnosis.bump, harmless, closed]
  rfl

/-- **Edits are reported where they were made.** Two trees that differ by edits in place are refused
for the same reason, or their snapshots have the same identities and owners and differ in the edited
items alone: one modification for each item of which an attribute differs, with the names of all these,
and one notice for each item that has become deprecated. If the edits only flag entries as deprecated,
or no longer so, nothing breaks and the next version is a patch. -/
theorem edits_are_reported_in_place (edited : old.EditedInPlace new) :
    (∀ problem, Snapshot.ofTree? old = .error problem ↔ Snapshot.ofTree? new = .error problem) ∧
      ∀ s s', Snapshot.ofTree? old = .ok s → Snapshot.ofTree? new = .ok s' →
        ReportsInPlace old new s s' ∧
          ((∀ id, new.declaration? id = old.declaration? id) →
            (Diagnosis.between s s').isBreaking = false ∧ (Diagnosis.between s s').bump = .patch) := by
  refine ⟨refused_iff_of_edited edited, fun s s' translated translated' => ?_⟩
  have reports := reportsInPlace_of_translated edited translated translated'
  exact ⟨reports, reports.patch⟩

/-- A struct that may be deprecated, with one field of the given type. -/
def pointTree (deprecated : Bool) (type : String) : Tree where
  index := [
    (0, { declaration := .module { name := "demo", items := [1] } }),
    (1, { deprecated := deprecated, declaration := .struct { name := "Point", fields := [2] } }),
    (2, { declaration := .structField { name := "x", type := type } })]
  root := { name := "demo", items := [1] }
  rooted := rfl

private theorem pointTree_translated (deprecated : Bool) (type : String) :
    ∃ s item field, Snapshot.ofTree? (pointTree deprecated type) = .ok s ∧
      s.get? ⟨["Point"], .struct⟩ = some item ∧ item.deprecated = deprecated ∧
      s.get? ⟨["Point", "x"], .structField⟩ = some field ∧ field.form = .field type := by
  have run : ∃ final item field, Run (pointTree deprecated type) .start
      (pointTree deprecated type).rootTasks [⟨1, [], .listed 0⟩] final ∧
        final.published.get? ⟨["Point"], .struct⟩ = some item ∧ item.deprecated = deprecated ∧
        final.published.get? ⟨["Point", "x"], .structField⟩ = some field ∧ field.form = .field type :=
    ⟨_, _, _, .answer (by decide) rfl .done, rfl, rfl, rfl, rfl⟩
  obtain ⟨final, item, field, run, stored⟩ := run
  exact ⟨final.published, item, field, ofTree?_eq_ok_iff.mpr ⟨_, final, run, rfl⟩, stored⟩

private theorem pointTree_edited (deprecated deprecated' : Bool) (type type' : String) :
    (pointTree deprecated type).EditedInPlace (pointTree deprecated' type') :=
  .of_index (.cons ⟨rfl, .refl _ _⟩ (.cons ⟨rfl, .refl _ _⟩ (.cons ⟨rfl, .structField rfl⟩ .nil)))

/-- A struct that becomes deprecated while its field gets another type: both are reported, each under
its own identity. Without the other type there is nothing more than a patch. -/
theorem edits_are_reported_in_place_point :
    (∃ s s' was now breaking changed item, Snapshot.ofTree? (pointTree false "i32") = .ok s ∧
      Snapshot.ofTree? (pointTree true "i64") = .ok s' ∧ "type" ∈ changed ∧
      .modified ⟨["Point", "x"], .structField⟩ was now breaking changed ∈
        (Diagnosis.between s s').changes ∧
      .deprecated ⟨["Point"], .struct⟩ item ∈ (Diagnosis.between s s').changes) ∧
    ∃ s s', Snapshot.ofTree? (pointTree false "i32") = .ok s ∧
      Snapshot.ofTree? (pointTree true "i32") = .ok s' ∧ (Diagnosis.between s s').bump = .patch := by
  obtain ⟨s, item, field, translated, before, unflagged, typed, form⟩ :=
    pointTree_translated false "i32"
  constructor
  · obtain ⟨s', item', field', translated', after, flagged, typed', form'⟩ :=
      pointTree_translated true "i64"
    obtain ⟨reports, _⟩ := (edits_are_reported_in_place
      (pointTree_edited false true "i32" "i64")).2 s s' translated translated'
    have retyped : "type" ∈ Item.changedAttributes field field' := by
      rw [Item.mem_changedAttributes]
      simp [Item.attribute?, Item.attributes, Form.attributes, List.lookup_cons, form, form']
    have modified := (reports.exact _).mpr (.modified typed typed' (List.ne_nil_of_mem retyped)
      (fun _ => Item.mem_changedAttributes) (Item.changedAttributes_increasing field field'))
    exact ⟨s, s', _, _, _, _, _, translated, translated', retyped, modified,
      (reports.exact _).mpr (.deprecated before after unflagged flagged)⟩
  · obtain ⟨s', _, _, translated', _⟩ := pointTree_translated true "i32"
    obtain ⟨_, patch⟩ := (edits_are_reported_in_place
      (pointTree_edited false true "i32" "i32")).2 s s' translated translated'
    refine ⟨s, s', translated, translated', (patch fun id => ?_).2⟩
    simp only [declaration?, entry?, pointTree, List.lookup_cons]
    cases id == 0 <;> cases id == 1 <;> rfl

end Tree

end ApiDelta
