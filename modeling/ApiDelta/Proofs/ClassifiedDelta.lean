import ApiDelta.Delta.Compare
import ApiDelta.Proofs.ItemAgreement
import ApiDelta.Proofs.ReportOrder

/-!
A diagnosis is exactly the classified delta of two snapshots, in one order. The delta is a relation
between the two finite maps and a change; it knows neither loops nor lists, so nothing in it can
depend on the order in which a snapshot is gone through.
-/
namespace ApiDelta

namespace Snapshot

theorem mem_ids_iff {s : Snapshot} {id : Identity} : id ∈ s.ids ↔ ∃ item, s.get? id = some item := by
  simp [ids, get?_eq_some_iff]

theorem contains_eq_false_iff {s : Snapshot} {id : Identity} :
    s.contains id = false ↔ s.get? id = none := by
  simp [contains]

end Snapshot

namespace Change

theorem nodup_keys_of_ids {changes : List Change} (distinct : (changes.map Change.id).Nodup) :
    (changes.map Change.key).Nodup := by
  refine List.Nodup.of_map (fun key => (ofLex key).2) ?_
  have keys := distinct.map Identity.key_injective
  rwa [List.map_map] at keys ⊢

/-- Changes of different kinds never share a key. -/
theorem nodup_keys_append {first second : List Change} (left : (first.map Change.key).Nodup)
    (right : (second.map Change.key).Nodup)
    (apart : ∀ a ∈ first, ∀ b ∈ second, a.kind ≠ b.kind) :
    ((first ++ second).map Change.key).Nodup := by
  rw [List.map_append, List.nodup_append]
  refine ⟨left, right, ?_⟩
  intro key member other otherMember same
  obtain ⟨a, inFirst, rfl⟩ := List.mem_map.mp member
  obtain ⟨b, inSecond, rfl⟩ := List.mem_map.mp otherMember
  exact apart a inFirst b inSecond (key_eq_iff.mp same).1

end Change

namespace Item

theorem isMember_eq_false_iff {item : Item} : item.isMember = false ↔ item.owner = none := by
  simp [isMember]

/-- What a modification tells of two items: that their classes differ, or else the sorted names of
the attributes that do. -/
def differences (old new : Item) : List String :=
  if old.itemClass = new.itemClass then changedAttributes old new else ["kind"]

theorem mem_changesTo {id : Identity} {old new : Item} {change : Change} :
    change ∈ changesTo id old new ↔
      (change = .deprecated id new ∧ new.deprecated = true ∧ old.deprecated = false) ∨
        (change = .modified id old new (isBreakingModification old new) (differences old new) ∧
          ¬ Agrees old new) := by
  unfold changesTo
  by_cases equal : old = new
  · subst equal
    have agree : Agrees old old := ⟨rfl, rfl, rfl⟩
    simp [agree]
  rw [if_neg equal, List.mem_append]
  refine or_congr ?_ ?_
  · by_cases noticed : new.deprecated = true ∧ (!old.deprecated) = true
    · rw [if_pos noticed]
      simpa using fun _ => noticed
    · rw [if_neg noticed]
      simp only [List.not_mem_nil, false_iff, not_and]
      exact fun _ flagged unflagged => noticed ⟨flagged, by simp [unflagged]⟩
  · by_cases sameClass : old.itemClass = new.itemClass
    · rw [if_neg (not_not.mpr sameClass), ← changedAttributes_eq_nil_iff sameClass]
      cases empty : changedAttributes old new with
      | nil => simp
      | cons name rest => simp [isBreakingModification, differences, sameClass, empty]
    · have disagree : ¬ Agrees old new := fun agree => sameClass agree.itemClass
      rw [if_pos sameClass]
      simp [isBreakingModification, differences, sameClass, disagree]

theorem id_of_mem_changesTo {id : Identity} {old new : Item} {change : Change}
    (member : change ∈ changesTo id old new) : change.id = id := by
  rcases mem_changesTo.mp member with ⟨rfl, _⟩ | ⟨rfl, _⟩ <;> rfl

theorem kind_of_mem_changesTo {id : Identity} {old new : Item} {change : Change}
    (member : change ∈ changesTo id old new) :
    change.kind = .deprecated ∨ change.kind = .modified := by
  rcases mem_changesTo.mp member with ⟨rfl, _⟩ | ⟨rfl, _⟩
  · exact .inl rfl
  · exact .inr rfl

/-- An item is reported at most once as deprecated and at most once as modified. -/
theorem nodup_keys_changesTo (id : Identity) (old new : Item) :
    ((changesTo id old new).map Change.key).Nodup := by
  unfold changesTo
  split
  · exact List.nodup_nil
  refine Change.nodup_keys_append ?_ ?_ ?_
  · split <;> simp
  · split
    · simp
    · split <;> simp
  · intro notice noticed modification modified
    have isNotice : notice.kind = .deprecated := by
      split at noticed
      · rw [List.mem_singleton.mp noticed]
        rfl
      · cases noticed
    have isModification : modification.kind = .modified := by
      split at modified
      · rw [List.mem_singleton.mp modified]
        rfl
      · split at modified
        · cases modified
        · rw [List.mem_singleton.mp modified]
          rfl
    rw [isNotice, isModification]
    decide

end Item

namespace Diagnosis

/-- The changes that two snapshots call for: what is found in one of them alone, members of an owner
apart, and what has become deprecated or says something else than before. -/
inductive Classified (old new : Snapshot) : Change → Prop where
  | removed {id : Identity} {item : Item} (held : old.get? id = some item)
      (gone : new.get? id = none) (free : item.owner = none) :
      Classified old new (.removed id item)
  | added {id : Identity} {item : Item} (held : new.get? id = some item)
      (absent : old.get? id = none) (free : item.owner = none) :
      Classified old new (.added id item)
  | deprecated {id : Identity} {was now : Item} (before : old.get? id = some was)
      (after : new.get? id = some now) (flagged : now.deprecated = true)
      (unflagged : was.deprecated = false) : Classified old new (.deprecated id now)
  | modified {id : Identity} {was now : Item} (before : old.get? id = some was)
      (after : new.get? id = some now) (differ : ¬ was.Agrees now) :
      Classified old new
        (.modified id was now (was.isBreakingModification now) (was.differences now))

theorem mem_unmatched {s other : Snapshot} {entry : SnapshotEntry} :
    entry ∈ unmatched s other ↔
      s.get? entry.1 = some entry.2 ∧ other.get? entry.1 = none ∧ entry.2.owner = none := by
  simp only [unmatched, List.mem_filter, Bool.and_eq_true, Bool.not_eq_true',
    Snapshot.contains_eq_false_iff, Item.isMember_eq_false_iff, Snapshot.get?_eq_some_iff]

/-- What becomes of one entry of the old snapshot that is looked up in the new one. -/
def comparisons (new : Snapshot) (entry : SnapshotEntry) : List Change :=
  match new.get? entry.1 with
  | some item => Item.changesTo entry.1 entry.2 item
  | none => []

theorem found_eq (old new : Snapshot) :
    found old new =
      (unmatched old new).map (fun entry => Change.removed entry.1 entry.2) ++
        (unmatched new old).map (fun entry => Change.added entry.1 entry.2) ++
        old.entries.flatMap (comparisons new) := rfl

theorem mem_comparisons {new : Snapshot} {entry : SnapshotEntry} {change : Change} :
    change ∈ comparisons new entry ↔
      ∃ now, new.get? entry.1 = some now ∧ change ∈ Item.changesTo entry.1 entry.2 now := by
  unfold comparisons
  split <;> simp [*]

/-- The three loops find the classified changes and no others. -/
theorem mem_found {old new : Snapshot} {change : Change} :
    change ∈ found old new ↔ Classified old new change := by
  simp only [found_eq, List.mem_append, List.mem_map, List.mem_flatMap, mem_unmatched,
    mem_comparisons, Item.mem_changesTo]
  constructor
  · rintro ((⟨⟨id, item⟩, ⟨held, gone, free⟩, rfl⟩ | ⟨⟨id, item⟩, ⟨held, absent, free⟩, rfl⟩) |
      ⟨⟨id, was⟩, member, now, after, listed⟩)
    · exact .removed held gone free
    · exact .added held absent free
    · have before := Snapshot.get?_eq_some_iff.mpr member
      rcases listed with ⟨rfl, flagged, unflagged⟩ | ⟨rfl, differ⟩
      · exact .deprecated before after flagged unflagged
      · exact .modified before after differ
  · intro classified
    cases classified with
    | removed held gone free => exact .inl (.inl ⟨(_, _), ⟨held, gone, free⟩, rfl⟩)
    | added held absent free => exact .inl (.inr ⟨(_, _), ⟨held, absent, free⟩, rfl⟩)
    | deprecated before after flagged unflagged =>
      exact .inr ⟨(_, _), Snapshot.get?_eq_some_iff.mp before, _, after,
        .inl ⟨rfl, flagged, unflagged⟩⟩
    | modified before after differ =>
      exact .inr ⟨(_, _), Snapshot.get?_eq_some_iff.mp before, _, after, .inr ⟨rfl, differ⟩⟩

private theorem nodup_ids_unmatched (s other : Snapshot) :
    ((unmatched s other).map Prod.fst).Nodup :=
  s.nodup.sublist (List.filter_sublist.map Prod.fst)

private theorem nodup_keys_comparisons (old new : Snapshot) :
    ((old.entries.flatMap (comparisons new)).map Change.key).Nodup := by
  rw [List.map_flatMap, List.nodup_flatMap]
  constructor
  · intro entry _
    unfold comparisons
    split
    · exact Item.nodup_keys_changesTo ..
    · exact List.nodup_nil
  · have different : old.entries.Pairwise fun a b => a.1 ≠ b.1 := List.pairwise_map.mp old.nodup
    refine different.imp ?_
    intro a b apart key member otherMember
    obtain ⟨change, listed, rfl⟩ := List.mem_map.mp member
    obtain ⟨other, otherListed, same⟩ := List.mem_map.mp otherMember
    obtain ⟨_, _, changes⟩ := mem_comparisons.mp listed
    obtain ⟨_, _, otherChanges⟩ := mem_comparisons.mp otherListed
    rw [Change.key_eq_iff, Item.id_of_mem_changesTo changes,
      Item.id_of_mem_changesTo otherChanges] at same
    exact apart same.2.symm

/-- Every change is found once: kind and identity tell the found changes apart. -/
theorem nodup_keys_found (old new : Snapshot) : ((found old new).map Change.key).Nodup := by
  have removals : (((unmatched old new).map fun entry =>
      Change.removed entry.1 entry.2).map Change.key).Nodup :=
    Change.nodup_keys_of_ids (by
      rw [List.map_map]
      exact nodup_ids_unmatched old new)
  have additions : (((unmatched new old).map fun entry =>
      Change.added entry.1 entry.2).map Change.key).Nodup :=
    Change.nodup_keys_of_ids (by
      rw [List.map_map]
      exact nodup_ids_unmatched new old)
  rw [found_eq]
  refine Change.nodup_keys_append (Change.nodup_keys_append removals additions ?_)
    (nodup_keys_comparisons old new) ?_
  · intro removal removed addition added
    obtain ⟨_, _, rfl⟩ := List.mem_map.mp removed
    obtain ⟨_, _, rfl⟩ := List.mem_map.mp added
    exact nofun
  · intro single unmatched comparison compared
    obtain ⟨_, _, listed⟩ := List.mem_flatMap.mp compared
    obtain ⟨_, _, changes⟩ := mem_comparisons.mp listed
    have single_kind : single.kind = .removed ∨ single.kind = .added := by
      rcases List.mem_append.mp unmatched with removed | added
      · obtain ⟨_, _, rfl⟩ := List.mem_map.mp removed
        exact .inl rfl
      · obtain ⟨_, _, rfl⟩ := List.mem_map.mp added
        exact .inr rfl
    rcases single_kind with first | first <;>
      rcases Item.kind_of_mem_changesTo changes with second | second <;>
        rw [first, second] <;> decide

theorem mem_between {old new : Snapshot} {change : Change} :
    change ∈ (between old new).changes ↔ Classified old new change :=
  mem_ofChanges.trans mem_found

theorem between_increasing (old new : Snapshot) :
    (between old new).changes.Pairwise fun a b => a.key < b.key :=
  ofChanges_pairwise_lt (nodup_keys_found old new)

/-- A snapshot differs from itself in nothing. -/
theorem between_self (s : Snapshot) : (between s s).changes = [] := by
  refine List.eq_nil_iff_forall_not_mem.mpr fun change member => ?_
  cases mem_between.mp member with
  | removed held gone => simp [held] at gone
  | added held absent => simp [held] at absent
  | deprecated before after flagged unflagged =>
    rw [before] at after
    cases after
    rw [flagged] at unflagged
    cases unflagged
  | modified before after differ =>
    rw [before] at after
    cases after
    exact differ ⟨rfl, rfl, rfl⟩

theorem between_eq_single {s s' : Snapshot} {change : Change}
    (only : ∀ other, Classified s s' other ↔ other = change) : between s s' = ⟨[change]⟩ := by
  refine congrArg mk (eq_of_pairwise_lt (between_increasing s s') (List.pairwise_singleton _ _) ?_)
  exact fun other => mem_between.trans ((only other).trans List.mem_singleton.symm)

/-- Two snapshots that differ in one entry, which belongs to no other, differ by one addition. -/
theorem between_of_one_more {s s' : Snapshot} {id : Identity} {item : Item}
    (free : item.owner = none) (absent : s.get? id = none)
    (more : ∀ other, s'.get? other = if other = id then some item else s.get? other) :
    between s s' = ⟨[.added id item]⟩ ∧ between s' s = ⟨[.removed id item]⟩ := by
  have here : s'.get? id = some item := by rw [more, if_pos rfl]
  have kept {other : Identity} {was : Item} (held : s.get? other = some was) :
      s'.get? other = some was := by
    have apart : other ≠ id := by
      rintro rfl
      cases absent.symm.trans held
    rw [more, if_neg apart, held]
  have found {other : Identity} {now : Item} (held : s'.get? other = some now)
      (unmatched : s.get? other = none) : other = id ∧ now = item := by
    by_cases same : other = id
    · subst same
      exact ⟨rfl, Option.some.inj (held.symm.trans here)⟩
    · rw [more, if_neg same, unmatched] at held
      cases held
  constructor <;> refine between_eq_single fun change => ⟨fun classified => ?_, ?_⟩
  · cases classified with
    | removed held gone => cases (kept held).symm.trans gone
    | added held unmatched =>
      obtain ⟨rfl, rfl⟩ := found held unmatched
      rfl
    | deprecated before after flagged unflagged =>
      cases (kept before).symm.trans after
      cases flagged.symm.trans unflagged
    | modified before after differ =>
      cases (kept before).symm.trans after
      exact absurd ⟨rfl, rfl, rfl⟩ differ
  · rintro rfl
    exact .added here absent free
  · cases classified with
    | removed held gone =>
      obtain ⟨rfl, rfl⟩ := found held gone
      rfl
    | added held unmatched => cases (kept held).symm.trans unmatched
    | deprecated before after flagged unflagged =>
      cases (kept after).symm.trans before
      cases flagged.symm.trans unflagged
    | modified before after differ =>
      cases (kept after).symm.trans before
      exact absurd ⟨rfl, rfl, rfl⟩ differ
  · rintro rfl
    exact .removed here absent free

/-- A single item that is no member is added to nothing, and is removed where nothing is left. -/
theorem between_single {s : Snapshot} {id : Identity} {item : Item} (entries : s.entries = [(id, item)])
    (free : item.isMember = false) :
    between .empty s = ⟨[.added id item]⟩ ∧ between s .empty = ⟨[.removed id item]⟩ := by
  refine between_of_one_more (Item.isMember_eq_false_iff.mp free) rfl fun other => ?_
  rw [Snapshot.get?, entries, List.lookup_cons]
  by_cases same : other = id
  · simp [same]
  · rw [beq_false_of_ne same, if_neg same]
    rfl

/-- The delta is a relation between maps: it does not see in which order their entries stand. -/
theorem Classified.of_same {old new old' new' : Snapshot} {change : Change}
    (sameOld : ∀ id, old'.get? id = old.get? id) (sameNew : ∀ id, new'.get? id = new.get? id)
    (classified : Classified old new change) : Classified old' new' change := by
  cases classified with
  | removed held gone free =>
    exact .removed ((sameOld _).trans held) ((sameNew _).trans gone) free
  | added held absent free =>
    exact .added ((sameNew _).trans held) ((sameOld _).trans absent) free
  | deprecated before after flagged unflagged =>
    exact .deprecated ((sameOld _).trans before) ((sameNew _).trans after) flagged unflagged
  | modified before after differ =>
    exact .modified ((sameOld _).trans before) ((sameNew _).trans after) differ

/-- **A diagnosis is the classified delta.** Its changes are strictly increasing in the order of
reports, they are exactly the changes that the two maps call for, and two maps that are gone through in
another order give the same diagnosis. -/
theorem between_is_classified_delta (old new : Snapshot) :
    (between old new).changes.Pairwise (fun a b => a.key < b.key) ∧
      (∀ change, change ∈ (between old new).changes ↔ Classified old new change) ∧
      ∀ old' new' : Snapshot, (∀ id, old'.get? id = old.get? id) →
        (∀ id, new'.get? id = new.get? id) → between old' new' = between old new := by
  refine ⟨between_increasing old new, fun _ => mem_between, ?_⟩
  intro old' new' sameOld sameNew
  have same : ∀ change, change ∈ (between old' new').changes ↔
      change ∈ (between old new).changes := by
    intro change
    rw [mem_between, mem_between]
    exact ⟨.of_same (fun id => (sameOld id).symm) (fun id => (sameNew id).symm),
      .of_same sameOld sameNew⟩
  exact congrArg Diagnosis.mk
    (eq_of_pairwise_lt (between_increasing old' new') (between_increasing old new) same)

/-- Two constants that vanish are reported alike, whichever of them the snapshot holds first. -/
theorem between_two_constants_swapped :
    let first : SnapshotEntry :=
      (⟨["first"], .constant⟩, { name := "first", form := .constant "u8" none false false })
    let second : SnapshotEntry :=
      (⟨["second"], .constant⟩, { name := "second", form := .constant "u8" none false false })
    between ⟨[second, first], by decide⟩ .empty = between ⟨[first, second], by decide⟩ .empty := by
  intro first second
  have same : ∀ id, Snapshot.get? ⟨[second, first], by decide⟩ id =
      Snapshot.get? ⟨[first, second], by decide⟩ id := by
    intro id
    refine Option.ext fun item => ?_
    rw [Snapshot.get?_eq_some_iff, Snapshot.get?_eq_some_iff]
    exact (List.Perm.swap first second []).mem_iff
  exact (between_is_classified_delta ⟨[first, second], by decide⟩ .empty).2.2
    ⟨[second, first], by decide⟩ .empty same fun _ => rfl

end Diagnosis

end ApiDelta
