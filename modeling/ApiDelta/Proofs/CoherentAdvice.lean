import Mathlib.Algebra.GroupWithZero.Nat
import Mathlib.Data.Prod.Lex
import ApiDelta.Proofs.EntryPoints

/-!
The advice of a report is coherent. Counts, flag, bump and proposed version are computed from a diagnosis
one by one, each on its own. All of them can be read off the records: the counts count them, the flag and
the bump follow from the counts, and the version is the current one with the component raised that the
bump names. More changes never call for a smaller version.
-/
namespace ApiDelta

theorem ChangeKind.label_injective : Function.Injective ChangeKind.label := by
  intro a b same
  cases a <;> cases b <;> first | rfl | exact absurd same (by decide)

namespace Change

@[simp] theorem record_change (change : Change) : change.record.change = change.kind.label := by
  cases change <;> rfl

@[simp] theorem record_breaking (change : Change) : change.record.breaking = change.breaking := by
  cases change <;> rfl

theorem breaking_of_removed {change : Change} (removed : change.kind = .removed) :
    change.breaking = true := by
  cases change with
  | removed => rfl
  | modified => cases removed
  | deprecated => cases removed
  | added => cases removed

end Change

/-- The count of one kind of change. -/
def Summary.ofKind (s : Summary) : ChangeKind → Nat
  | .removed => s.removed
  | .modified => s.modified
  | .deprecated => s.deprecated
  | .added => s.added

/-! ## What a diagnosis counts -/

namespace Diagnosis

variable (d : Diagnosis)

theorem summary_ofKind (kind : ChangeKind) : d.summary.ofKind kind = d.count kind := by
  cases kind <;> rfl

theorem count_cons (change : Change) (rest : List Change) (kind : ChangeKind) :
    (mk (change :: rest)).count kind = (mk rest).count kind + if change.kind = kind then 1 else 0 := by
  simp [count, List.countP_cons]

/-- Every change is of exactly one kind. -/
theorem sum_counts : (ChangeKind.all.map d.count).sum = d.changes.length := by
  obtain ⟨changes⟩ := d
  induction changes with
  | nil => rfl
  | cons change rest ih =>
    simp only [ChangeKind.all, List.map_cons, List.map_nil, List.sum_cons, List.sum_nil, count_cons,
      List.length_cons] at ih ⊢
    cases change.kind <;> simp only [reduceCtorEq, if_true, if_false] <;> omega

theorem removed_le_breaking : d.summary.removed ≤ d.summary.breaking :=
  List.countP_mono_left fun _ _ removed => Change.breaking_of_removed (of_decide_eq_true removed)

theorem isBreaking_iff : d.isBreaking = true ↔ 0 < d.summary.breaking := by
  rw [isBreaking, List.any_eq_true]
  exact List.countP_pos_iff.symm

theorem containsAdditions_iff :
    d.containsAdditions = true ↔ ∃ change ∈ d.changes, change.kind = .added := by
  simp [containsAdditions]

theorem bump_eq_major_iff : d.bump = .major ↔ d.isBreaking = true := by
  unfold bump
  split_ifs <;> simp_all

theorem bump_eq_minor_iff :
    d.bump = .minor ↔ d.isBreaking = false ∧ d.containsAdditions = true := by
  unfold bump
  split_ifs <;> simp_all

theorem bump_eq_patch_iff :
    d.bump = .patch ↔ d.isBreaking = false ∧ d.containsAdditions = false := by
  unfold bump
  split_ifs <;> simp_all

end Diagnosis

/-! ## The order of versions -/

/-- The place of the component that is raised, from the left. -/
def Bump.place : Bump → Nat
  | .major => 0
  | .minor => 1
  | .patch => 2

namespace Version

/-- The component that a bump names. -/
def component (v : Version) : Bump → Nat
  | .major => v.major
  | .minor => v.minor
  | .patch => v.patch

/-- The three numbers of a version, which are ordered from the left. -/
def triple (v : Version) : ℕ ×ₗ ℕ ×ₗ ℕ :=
  toLex (v.major, toLex (v.minor, v.patch))

theorem triple_lt_iff {v w : Version} :
    v.triple < w.triple ↔ v.major < w.major ∨ v.major = w.major ∧
      (v.minor < w.minor ∨ v.minor = w.minor ∧ v.patch < w.patch) := by
  simp [triple, Prod.Lex.toLex_lt_toLex]

/-- Raising a component keeps what is left of it and sets what is right of it to zero. -/
theorem component_raise (v : Version) (bump part : Bump) :
    (v.raise bump).component part =
      if part.place < bump.place then v.component part
      else if part = bump then v.component part + 1
      else 0 := by
  cases bump <;> cases part <;> rfl

theorem triple_lt_raise (v : Version) (bump : Bump) : v.triple < (v.raise bump).triple := by
  rw [triple_lt_iff]
  cases bump with
  | major => exact .inl (Nat.lt_succ_self _)
  | minor => exact .inr ⟨rfl, .inl (Nat.lt_succ_self _)⟩
  | patch => exact .inr ⟨rfl, .inr ⟨rfl, Nat.lt_succ_self _⟩⟩

/-- The further left the component, the greater the version. -/
theorem raise_lt_raise (v : Version) {less more : Bump} (left : more.place < less.place) :
    (v.raise less).triple < (v.raise more).triple := by
  rw [triple_lt_iff]
  cases more with
  | major =>
    cases less with
    | major => exact absurd left (by decide)
    | minor => exact .inl (Nat.lt_succ_self _)
    | patch => exact .inl (Nat.lt_succ_self _)
  | minor =>
    cases less with
    | major => exact absurd left (by decide)
    | minor => exact absurd left (by decide)
    | patch => exact .inr ⟨rfl, .inl (Nat.lt_succ_self _)⟩
  | patch => cases less <;> exact absurd left (by decide)

theorem raise_le_raise (v : Version) {less more : Bump} (left : more.place ≤ less.place) :
    (v.raise less).triple ≤ (v.raise more).triple := by
  rcases Nat.lt_or_eq_of_le left with further | same
  · exact (raise_lt_raise v further).le
  · have equal : more = less := by cases more <;> cases less <;> first | rfl | cases same
    rw [equal]

end Version

/-- More changes call for a component at least as far to the left. -/
theorem Diagnosis.place_bump_le {d d' : Diagnosis} (more : d.changes ⊆ d'.changes) :
    d'.bump.place ≤ d.bump.place := by
  have breaks : d.isBreaking = true → d'.isBreaking = true := by
    simp only [isBreaking, List.any_eq_true]
    exact fun ⟨change, held, breaking⟩ => ⟨change, more held, breaking⟩
  have adds : d.containsAdditions = true → d'.containsAdditions = true := by
    simp only [containsAdditions_iff]
    exact fun ⟨change, held, added⟩ => ⟨change, more held, added⟩
  cases called : d.bump with
  | major =>
    have same := d'.bump_eq_major_iff.mpr (breaks (d.bump_eq_major_iff.mp called))
    rw [same]
  | minor =>
    have added := adds (d.bump_eq_minor_iff.mp called).2
    unfold bump
    split_ifs <;> decide
  | patch => cases d'.bump <;> decide

/-- Monotonicity of the proposal: a diagnosis with more changes never gets a smaller version. -/
theorem Version.next_monotone {d d' : Diagnosis} (more : d.changes ⊆ d'.changes) (v : Version) :
    (v.next d).triple ≤ (v.next d').triple :=
  v.raise_le_raise (Diagnosis.place_bump_le more)

/-! ## The report -/

/-- How often a report records a change of the kind. -/
def Report.records (r : Report) (kind : ChangeKind) : Nat :=
  r.changes.countP fun record => record.change = kind.label

/-- The advice of a report agrees with its records: the counts, the flag and the bump with the records
and with each other, the proposed version with the bump. -/
structure Report.Coherent (r : Report) (current proposed : Version) : Prop where
  counted : ∀ kind, r.summary.ofKind kind = r.records kind
  total : (ChangeKind.all.map r.summary.ofKind).sum = r.changes.length
  breakingCounted : r.summary.breaking = r.changes.countP (·.breaking)
  removalsBreak : r.summary.removed ≤ r.summary.breaking
  flagged : r.breaking = true ↔ 0 < r.summary.breaking
  major : r.bump = .major ↔ 0 < r.summary.breaking
  minor : r.bump = .minor ↔ r.summary.breaking = 0 ∧ 0 < r.records .added
  patch : r.bump = .patch ↔ r.summary.breaking = 0 ∧ r.records .added = 0
  written : r.nextVersion = proposed.text
  plain : proposed.pre = none ∧ proposed.build = none
  greater : current.triple < proposed.triple
  raised : ∀ part, proposed.component part =
    if part.place < r.bump.place then current.component part
    else if part = r.bump then current.component part + 1
    else 0

namespace Report

variable (crate : String) (current : Version) (d : Diagnosis)

theorem records_of (kind : ChangeKind) : (Report.of crate current d).records kind = d.count kind := by
  show (d.changes.map Change.record).countP _ = _
  rw [List.countP_map]
  refine List.countP_congr fun change _ => ?_
  simp [ChangeKind.label_injective.eq_iff]

theorem breaking_of : (Report.of crate current d).changes.countP (·.breaking) = d.summary.breaking := by
  show (d.changes.map Change.record).countP _ = _
  rw [List.countP_map]
  exact List.countP_congr fun change _ => by simp

theorem records_added_pos :
    0 < (Report.of crate current d).records .added ↔ d.containsAdditions = true := by
  rw [records_of, Diagnosis.count, List.countP_pos_iff, Diagnosis.containsAdditions, List.any_eq_true]

theorem coherent_of : (Report.of crate current d).Coherent current (current.next d) := by
  have unbroken : d.isBreaking = false ↔ d.summary.breaking = 0 := by
    rw [← Bool.not_eq_true, d.isBreaking_iff, Nat.pos_iff_ne_zero, not_not]
  have adds := records_added_pos crate current d
  have adds_not : (Report.of crate current d).records .added = 0 ↔ d.containsAdditions = false := by
    rw [← Bool.not_eq_true, ← adds, Nat.pos_iff_ne_zero, not_not]
  exact {
    counted := fun kind => by rw [records_of]; exact d.summary_ofKind kind
    total := by
      have counts : d.summary.ofKind = d.count := funext d.summary_ofKind
      show (ChangeKind.all.map d.summary.ofKind).sum = (d.changes.map Change.record).length
      rw [counts, List.length_map, d.sum_counts]
    breakingCounted := (breaking_of crate current d).symm
    removalsBreak := d.removed_le_breaking
    flagged := d.isBreaking_iff
    major := d.bump_eq_major_iff.trans d.isBreaking_iff
    minor := d.bump_eq_minor_iff.trans (and_congr unbroken adds.symm)
    patch := d.bump_eq_patch_iff.trans (and_congr unbroken adds_not.symm)
    written := rfl
    plain := by
      show (current.raise d.bump).pre = none ∧ (current.raise d.bump).build = none
      cases d.bump <;> exact ⟨rfl, rfl⟩
    greater := current.triple_lt_raise d.bump
    raised := current.component_raise d.bump }

end Report

namespace Release

/-- **Advice is coherent.** Whenever a comparison succeeds, with the version that it resolved: the counts
of its report count the records and sum to their number, a removal breaks callers, the flag and the bump
follow from the counts, and the proposed version is a plain one, greater than the current one, with the
component raised that the bump names. The proposal is monotone in the changes. -/
theorem advice_is_coherent (files : Files.Store) (old new : Source) (current : Current) :
    (∀ c, (diff files old new current).outcome = .ok c →
      ∃ oldTree version, (old.tree files).outcome = .ok oldTree ∧
        current.resolve oldTree = .ok version ∧ c.report.currentVersion = version.text ∧
        c.proposed = version.next c.diagnosis ∧ c.report.Coherent version c.proposed) ∧
    ∀ (d d' : Diagnosis) (version : Version), d.changes ⊆ d'.changes →
      (version.next d).triple ≤ (version.next d').triple := by
  refine ⟨fun c answered => ?_, fun _ _ version more => version.next_monotone more⟩
  obtain ⟨oldTree, newTree, s, s', version, held, _, resolves, rfl⟩ := diff_eq_ok_iff.mp answered
  exact ⟨oldTree, version, held.read, resolve_eq_ok_iff.mpr resolves, rfl, rfl,
    Report.coherent_of _ version (Diagnosis.between s s')⟩

/-- The struct library loses its struct, and its recorded version 1.2.3 is the one to start from. -/
theorem advice_is_coherent_lost_struct :
    ∃ c, (diff ⟨.root, []⟩ (.value structLibrary) (.value emptyLibrary) .recorded).outcome = .ok c ∧
      c.report.Coherent ⟨1, 2, 3, none, none⟩ c.proposed ∧
      (Version.next ⟨1, 2, 3, none, none⟩ ⟨[]⟩).triple ≤
        (Version.next ⟨1, 2, 3, none, none⟩ c.diagnosis).triple := by
  obtain ⟨s, flattened⟩ : ∃ s, Snapshot.ofTree? structLibraryTree = .ok s :=
    ⟨_, Tree.ofTree?_eq_ok_iff.mpr ⟨_, _, .answer (by decide) rfl .done, rfl⟩⟩
  obtain ⟨s', flattened'⟩ : ∃ s, Snapshot.ofTree? emptyLibraryTree = .ok s :=
    ⟨_, Tree.ofTree?_eq_ok_iff.mpr ⟨_, _, .done, rfl⟩⟩
  have holds : (Source.value structLibrary).Holds ⟨.root, []⟩ structLibraryTree s := ⟨rfl, flattened⟩
  have holds' : (Source.value emptyLibrary).Holds ⟨.root, []⟩ emptyLibraryTree s' :=
    ⟨rfl, flattened'⟩
  obtain ⟨coherent, monotone⟩ :=
    advice_is_coherent ⟨.root, []⟩ (.value structLibrary) (.value emptyLibrary) .recorded
  have answered : (diff ⟨.root, []⟩ (.value structLibrary) (.value emptyLibrary) .recorded).outcome =
      .ok (.of structLibraryTree emptyLibraryTree s s' ⟨1, 2, 3, none, none⟩) :=
    diff_eq_ok_iff.mpr ⟨_, _, s, s', _, holds, holds', .recorded rfl (by decide), rfl⟩
  obtain ⟨oldTree, version, read, resolved, _, _, agrees⟩ := coherent _ answered
  cases holds.read.symm.trans read
  cases resolve_eq_ok_iff.mp resolved with
  | recorded held denotes =>
    cases held
    have start : Version.parse? "1.2.3" = some ⟨1, 2, 3, none, none⟩ := by decide
    obtain rfl : _ = version := Option.some.inj (start.symm.trans denotes)
    exact ⟨_, answered, agrees, monotone ⟨[]⟩ _ _ (List.nil_subset _)⟩

end Release

end ApiDelta
