import ApiDelta.Proofs.ClassifiedDelta
import ApiDelta.Proofs.CoherentAdvice

/-!
The way back. The diagnosis of two snapshots taken in the other direction holds the same changes seen
from the other side: what was added is removed again, and what was modified is modified back, in the
same attributes. Two things keep to one direction: a deprecation is told only where it appears, and
whether a modification breaks callers is decided anew.
-/
namespace ApiDelta

namespace Item

variable {old new : Item}

theorem changedAttributes_comm (old new : Item) :
    changedAttributes old new = changedAttributes new old := by
  refine (changedAttributes_increasing old new).eq_of_mem_iff (changedAttributes_increasing new old) ?_
  intro name
  rw [mem_changedAttributes, mem_changedAttributes, ne_comm]

/-- What a modification tells of two items does not depend on which of them came first. -/
theorem differences_comm (old new : Item) : differences old new = differences new old := by
  unfold differences
  rw [changedAttributes_comm old new]
  exact if_congr eq_comm rfl rfl

end Item

namespace Diagnosis

variable {a b : Snapshot} {id : Identity}

theorem added_iff {item : Item} :
    .added id item ∈ (between a b).changes ↔
      b.get? id = some item ∧ a.get? id = none ∧ item.owner = none := by
  rw [mem_between]
  constructor
  · rintro (_ | ⟨held, absent, free⟩)
    exact ⟨held, absent, free⟩
  · exact fun ⟨held, absent, free⟩ => .added held absent free

theorem removed_iff {item : Item} :
    .removed id item ∈ (between a b).changes ↔
      a.get? id = some item ∧ b.get? id = none ∧ item.owner = none := by
  rw [mem_between]
  constructor
  · rintro ⟨held, gone, free⟩
    exact ⟨held, gone, free⟩
  · exact fun ⟨held, gone, free⟩ => .removed held gone free

theorem modified_iff {was now : Item} {breaking : Bool} {fields : List String} :
    .modified id was now breaking fields ∈ (between a b).changes ↔
      a.get? id = some was ∧ b.get? id = some now ∧ ¬ was.Agrees now ∧
        breaking = was.isBreakingModification now ∧ fields = was.differences now := by
  rw [mem_between]
  constructor
  · intro classified
    cases classified with
    | modified before after differ => exact ⟨before, after, differ, rfl, rfl⟩
  · rintro ⟨before, after, differ, rfl, rfl⟩
    exact .modified before after differ

/-- What was added on the way there is what is removed on the way back. -/
theorem added_iff_removed {item : Item} :
    .added id item ∈ (between a b).changes ↔ .removed id item ∈ (between b a).changes :=
  added_iff.trans removed_iff.symm

/-- A modification is undone on the way back, in the same attributes. The flags may differ. -/
theorem modified_back {was now : Item} {breaking : Bool} {fields : List String}
    (member : .modified id was now breaking fields ∈ (between a b).changes) :
    .modified id now was (now.isBreakingModification was) fields ∈ (between b a).changes := by
  cases mem_between.mp member with
  | modified before after differ =>
    rw [Item.differences_comm]
    exact mem_between.mpr (.modified after before fun agree => differ agree.symm)

/-- A deprecation is told in the direction in which it appears. -/
theorem not_deprecated_back {item item' : Item}
    (member : .deprecated id item ∈ (between a b).changes) :
    .deprecated id item' ∉ (between b a).changes := by
  intro back
  cases mem_between.mp member with
  | deprecated _ after flagged =>
    cases mem_between.mp back with
    | deprecated before _ _ unflagged =>
      obtain rfl := Option.some.inj (after.symm.trans before)
      exact Bool.false_ne_true (unflagged.symm.trans flagged)

/-- The way back from a release with additions breaks callers. -/
theorem isBreaking_back (additions : (between a b).containsAdditions = true) :
    (between b a).isBreaking = true := by
  obtain ⟨change, member, kind⟩ := (containsAdditions_iff _).mp additions
  cases change with
  | added id item => exact List.any_eq_true.mpr ⟨_, added_iff_removed.mp member, rfl⟩
  | removed | modified | deprecated => cases kind

/-- **The way back undoes the way there.** An item is added in one direction exactly if it is removed in
the other, and modified in one exactly if it is modified in the other, between the same two items and
in the same attributes. No identity becomes deprecated in both directions. Where the way there adds
something, the way back breaks callers. -/
theorem way_back_undoes (a b : Snapshot) :
    (∀ id item, .added id item ∈ (between a b).changes ↔ .removed id item ∈ (between b a).changes) ∧
      (∀ id was now fields,
        (∃ breaking, .modified id was now breaking fields ∈ (between a b).changes) ↔
          ∃ breaking, .modified id now was breaking fields ∈ (between b a).changes) ∧
      (∀ id item item', .deprecated id item ∈ (between a b).changes →
        .deprecated id item' ∉ (between b a).changes) ∧
      ((between a b).containsAdditions = true → (between b a).isBreaking = true) := by
  refine ⟨fun _ _ => added_iff_removed, ?_, fun _ _ _ => not_deprecated_back, isBreaking_back⟩
  intro id was now fields
  constructor
  · rintro ⟨_, member⟩
    exact ⟨_, modified_back member⟩
  · rintro ⟨_, member⟩
    exact ⟨_, modified_back member⟩

/-- A constant gets another value and becomes deprecated, and a second one appears. On the way back the
first gets its old value and no notice, the second is removed, and so callers break. -/
theorem way_back_undoes_two_constants :
    let limit : Identity := ⟨["limit"], .constant⟩
    let was : Item := { name := "limit", form := .constant "u8" (some "1") false false }
    let now : Item :=
      { name := "limit", deprecated := true, form := .constant "u8" (some "2") false false }
    let fresh : SnapshotEntry :=
      (⟨["fresh"], .constant⟩, { name := "fresh", form := .constant "u8" none false false })
    let back := between ⟨[(limit, now), fresh], by decide⟩ ⟨[(limit, was)], by decide⟩
    .removed fresh.1 fresh.2 ∈ back.changes ∧
      (∃ breaking fields, .modified limit now was breaking fields ∈ back.changes) ∧
      .deprecated limit was ∉ back.changes ∧ back.isBreaking = true := by
  intro limit was now fresh back
  let old : Snapshot := ⟨[(limit, was)], by decide⟩
  let new : Snapshot := ⟨[(limit, now), fresh], by decide⟩
  have added : .added fresh.1 fresh.2 ∈ (between old new).changes := added_iff.mpr ⟨rfl, rfl, rfl⟩
  have modified : Classified old new
      (.modified limit was now (was.isBreakingModification now) (was.differences now)) :=
    .modified rfl rfl fun agree => absurd agree.form (by decide)
  have unflagged : was.deprecated = false := rfl
  have deprecated : Classified old new (.deprecated limit now) := .deprecated rfl rfl rfl unflagged
  obtain ⟨additions, modifications, deprecations, breaks⟩ := way_back_undoes old new
  obtain ⟨breaking, undone⟩ := (modifications _ _ _ _).mp ⟨_, mem_between.mpr modified⟩
  refine ⟨(additions _ _).mp added, ⟨breaking, _, undone⟩,
    deprecations _ _ _ (mem_between.mpr deprecated), ?_⟩
  exact breaks ((containsAdditions_iff _).mpr ⟨_, added, rfl⟩)

end Diagnosis

end ApiDelta
