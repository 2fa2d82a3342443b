import ApiDelta.Proofs.Checking
import ApiDelta.Proofs.PublishedPaths

/-!
The three ways into the program agree. A check looks at one tree, a diagnosis at two, and a comparison
also at a version, between reading the trees and flattening them. Where more than one thing is wrong they
may complain of different ones. But each of them gives an answer exactly if all that it looks at is
sound, and a comparison reports the very diagnosis that is made without a version.
-/
namespace ApiDelta

theorem Told.bind_eq_ok_iff {α β : Type} {first : Told α} {next : α → Told β} {value : β} :
    (first >>= next).outcome = .ok value ↔
      ∃ middle, first.outcome = .ok middle ∧ (next middle).outcome = .ok value := by
  rw [outcome_bind]
  cases first.outcome with
  | ok middle => simp [Except.bind]
  | error failure => simp [Except.bind]

/-- A source holds a tree that can be flattened, and this is its snapshot. -/
structure Source.Holds (files : Files.Store) (source : Source) (tree : Tree) (s : Snapshot) : Prop where
  read : (source.tree files).outcome = .ok tree
  flattened : Snapshot.ofTree? tree = .ok s

theorem Tree.snapshot_eq_ok_iff {tree : Tree} {s : Snapshot} :
    tree.snapshot.outcome = .ok s ↔ Snapshot.ofTree? tree = .ok s := by
  rw [snapshot_outcome]
  cases Snapshot.ofTree? tree <;> simp [Except.mapError]

theorem Source.snapshot_eq_ok_iff {files : Files.Store} {source : Source} {s : Snapshot} :
    (source.snapshot files).outcome = .ok s ↔ ∃ tree, source.Holds files tree s := by
  have peeled : (source.snapshot files).outcome = .ok s ↔
      ∃ tree, (source.tree files).outcome = .ok tree ∧ tree.snapshot.outcome = .ok s :=
    Told.bind_eq_ok_iff
  rw [peeled]
  refine exists_congr fun tree => ?_
  rw [Tree.snapshot_eq_ok_iff]
  exact ⟨fun both => ⟨both.1, both.2⟩, fun holds => ⟨holds.read, holds.flattened⟩⟩

/-- A source holds one tree with one snapshot. -/
theorem Source.Holds.unique {files : Files.Store} {source : Source} {tree tree' : Tree}
    {s s' : Snapshot} (holds : source.Holds files tree s) (holds' : source.Holds files tree' s') :
    tree = tree' ∧ s = s' := by
  have trees := holds.read.symm.trans holds'.read
  cases trees
  have snapshots := holds.flattened.symm.trans holds'.flattened
  cases snapshots
  exact ⟨rfl, rfl⟩

namespace Release

/-- The version that a comparison starts from, given what the old tree records: one that is given, or the
one that a text denotes, which is written down or else recorded. -/
inductive Resolves (recorded : Option String) : Current → Version → Prop where
  | given {version : Version} : Resolves recorded (.given version) version
  | written {text : String} {version : Version} (denotes : Version.parse? text = some version) :
      Resolves recorded (.written text) version
  | recorded {text : String} {version : Version} (held : recorded = some text)
      (denotes : Version.parse? text = some version) : Resolves recorded .recorded version

section Answers

variable {files : Files.Store} {old new source : Source} {current : Current}

theorem readVersion_eq_ok_iff {text : String} {version : Version} :
    readVersion text = .ok version ↔ Version.parse? text = some version := by
  unfold readVersion
  cases Version.parse? text <;> simp

theorem resolve_eq_ok_iff {tree : Tree} {version : Version} :
    current.resolve tree = .ok version ↔ Resolves tree.crateVersion current version := by
  constructor
  · intro resolved
    cases current with
    | given other =>
      cases resolved
      exact .given
    | written text => exact .written (readVersion_eq_ok_iff.mp resolved)
    | recorded =>
      unfold Current.resolve at resolved
      cases held : tree.crateVersion with
      | none =>
        rw [held] at resolved
        cases resolved
      | some text =>
        rw [held] at resolved
        exact .recorded rfl (readVersion_eq_ok_iff.mp resolved)
  · intro resolves
    cases resolves with
    | given => rfl
    | written denotes => exact readVersion_eq_ok_iff.mpr denotes
    | recorded held denotes =>
      unfold Current.resolve
      rw [held]
      exact readVersion_eq_ok_iff.mpr denotes

/-- A check finds a tree sound exactly if it can be read and flattened. -/
theorem check_eq_sound_iff {sound : Sound} :
    (check files source).outcome = .ok (.ok sound) ↔
      ∃ tree s, source.Holds files tree s ∧ sound = ⟨tree.crateName, tree.crateVersion, s.size⟩ := by
  let account (tree : Tree) (s : Snapshot) : Sound := ⟨tree.crateName, tree.crateVersion, s.size⟩
  have answered : (check files source).outcome = .ok (.ok sound) ↔
      (source.tree files >>= fun tree => tree.snapshot >>= fun s => pure (account tree s)).outcome =
        .ok sound := by
    unfold check
    dsimp only
    split
    · rename_i made held
      rw [held]
      simp
    · rename_i failure held
      rw [held]
      split <;> simp
  rw [answered]
  simp only [Told.bind_eq_ok_iff, Tree.snapshot_eq_ok_iff]
  constructor
  · rintro ⟨tree, read, s, flattened, same⟩
    exact ⟨tree, s, ⟨read, flattened⟩, (Except.ok.inj same).symm⟩
  · rintro ⟨tree, s, ⟨read, flattened⟩, rfl⟩
    exact ⟨tree, read, s, flattened, rfl⟩

theorem diagnose_eq_ok_iff {d : Diagnosis} :
    (diagnose files old new).outcome = .ok d ↔
      ∃ oldTree newTree s s', old.Holds files oldTree s ∧ new.Holds files newTree s' ∧
        d = Diagnosis.between s s' := by
  unfold diagnose
  simp only [Told.bind_eq_ok_iff, Source.snapshot_eq_ok_iff]
  constructor
  · rintro ⟨s, ⟨oldTree, held⟩, s', ⟨newTree, held'⟩, same⟩
    exact ⟨oldTree, newTree, s, s', held, held', (Except.ok.inj same).symm⟩
  · rintro ⟨oldTree, newTree, s, s', held, held', rfl⟩
    exact ⟨s, ⟨oldTree, held⟩, s', ⟨newTree, held'⟩, rfl⟩

/-- What a comparison yields when it starts from the given version. -/
def Comparison.of (oldTree newTree : Tree) (s s' : Snapshot) (version : Version) : Comparison :=
  let d := Diagnosis.between s s'
  ⟨s, s', d, version.next d, .of (crateName oldTree newTree) version d⟩

theorem diff_eq_ok_iff {c : Comparison} :
    (diff files old new current).outcome = .ok c ↔
      ∃ oldTree newTree s s' version, old.Holds files oldTree s ∧ new.Holds files newTree s' ∧
        Resolves oldTree.crateVersion current version ∧
        c = .of oldTree newTree s s' version := by
  unfold diff
  simp only [Told.bind_eq_ok_iff, Tree.snapshot_eq_ok_iff, resolve_eq_ok_iff]
  constructor
  · rintro ⟨oldTree, read, newTree, read', version, resolves, s, flattened, s', flattened', d, same,
      _, _, _, _, made⟩
    cases same
    exact ⟨oldTree, newTree, s, s', version, ⟨read, flattened⟩, ⟨read', flattened'⟩, resolves,
      (Except.ok.inj made).symm⟩
  · rintro ⟨oldTree, newTree, s, s', version, ⟨read, flattened⟩, ⟨read', flattened'⟩, resolves, rfl⟩
    exact ⟨oldTree, read, newTree, read', version, resolves, s, flattened, s', flattened', _, rfl, (),
      rfl, (), rfl, rfl⟩

end Answers

/-- **The entry points agree.** There is a diagnosis exactly if both trees pass a check, and a comparison
exactly if moreover there is a version to start from. Where both are given, the comparison holds this
diagnosis, every change of it can be shown, and the report has a record of each change, in order, and
the flag, the bump and the counts of the diagnosis. -/
theorem entry_points_agree (files : Files.Store) (old new : Source) (current : Current) :
    ((∃ d, (diagnose files old new).outcome = .ok d) ↔
      (∃ sound, (check files old).outcome = .ok (.ok sound)) ∧
        ∃ sound, (check files new).outcome = .ok (.ok sound)) ∧
    ((∃ c, (diff files old new current).outcome = .ok c) ↔
      (∃ sound version, (check files old).outcome = .ok (.ok sound) ∧
        Resolves sound.crateVersion current version) ∧
        ∃ sound, (check files new).outcome = .ok (.ok sound)) ∧
    ∀ d c, (diagnose files old new).outcome = .ok d → (diff files old new current).outcome = .ok c →
      c.diagnosis = d ∧ d.isShowable = true ∧ c.report.changes = d.changes.map Change.record ∧
        c.report.breaking = d.isBreaking ∧ c.report.bump = d.bump ∧ c.report.summary = d.summary := by
  simp only [diagnose_eq_ok_iff, diff_eq_ok_iff, check_eq_sound_iff]
  refine ⟨⟨?_, ?_⟩, ⟨?_, ?_⟩, ?_⟩
  · rintro ⟨_, oldTree, newTree, s, s', held, held', _⟩
    exact ⟨⟨_, oldTree, s, held, rfl⟩, _, newTree, s', held', rfl⟩
  · rintro ⟨⟨_, oldTree, s, held, _⟩, _, newTree, s', held', _⟩
    exact ⟨_, oldTree, newTree, s, s', held, held', rfl⟩
  · rintro ⟨_, oldTree, newTree, s, s', version, held, held', resolves, _⟩
    exact ⟨⟨_, version, ⟨oldTree, s, held, rfl⟩, resolves⟩, _, newTree, s', held', rfl⟩
  · rintro ⟨⟨_, version, ⟨oldTree, s, held, rfl⟩, resolves⟩, _, newTree, s', held', _⟩
    exact ⟨_, oldTree, newTree, s, s', version, held, held', resolves, rfl⟩
  · rintro _ _ ⟨oldTree, newTree, s, s', held, held', rfl⟩ ⟨_, _, _, _, version, again, again', _, rfl⟩
    obtain ⟨rfl, rfl⟩ := held.unique again
    obtain ⟨rfl, rfl⟩ := held'.unique again'
    have shown := Diagnosis.isShowable_between held.flattened held'.flattened
    exact ⟨rfl, shown, rfl, rfl, rfl, rfl⟩

/-- A library with one struct, which records a version. -/
def structLibrary : Json :=
  .object [("crate_version", .text "1.2.3"), ("index", .object [
    ("0", .object [("kind", .text "module"), ("name", .text "lib"), ("items", .array [.int 1])]),
    ("1", .object [("kind", .text "struct"), ("name", .text "S")])])]

def structLibraryTree : Tree where
  crateVersion := "1.2.3"
  index := [
    (0, { declaration := .module { name := "lib", items := [1] } }),
    (1, { declaration := .struct { name := "S" } })]
  root := { name := "lib", items := [1] }
  rooted := rfl

/-- The library without its struct. -/
def emptyLibrary : Json :=
  .object [("index", .object [("0", .object [("kind", .text "module"), ("name", .text "lib")])])]

def emptyLibraryTree : Tree where
  index := [(0, { declaration := .module { name := "lib" } })]
  root := { name := "lib" }
  rooted := rfl

/-- The step from the struct library to the one without the struct is diagnosed and reported as a
removal. -/
theorem entry_points_agree_struct_library :
    ∃ item d c, (diagnose ⟨.root, []⟩ (.value structLibrary) (.value emptyLibrary)).outcome = .ok d ∧
      (diff ⟨.root, []⟩ (.value structLibrary) (.value emptyLibrary) .recorded).outcome = .ok c ∧
      d.changes = [.removed ⟨["S"], .struct⟩ item] ∧ c.diagnosis = d ∧
      c.report.changes = [Change.record (.removed ⟨["S"], .struct⟩ item)] := by
  obtain ⟨s, item, flattened, entries, free⟩ : ∃ s item, Snapshot.ofTree? structLibraryTree = .ok s ∧
      s.entries = [(⟨["S"], .struct⟩, item)] ∧ item.isMember = false :=
    ⟨_, _, Tree.ofTree?_eq_ok_iff.mpr ⟨_, _, .answer (by decide) rfl .done, rfl⟩, rfl, rfl⟩
  have held : (Source.value structLibrary).Holds ⟨.root, []⟩ structLibraryTree s := ⟨rfl, flattened⟩
  have held' : (Source.value emptyLibrary).Holds ⟨.root, []⟩ emptyLibraryTree .empty :=
    ⟨rfl, Tree.ofTree?_eq_ok_iff.mpr ⟨_, _, .done, rfl⟩⟩
  have sound := check_eq_sound_iff.mpr ⟨_, _, held, rfl⟩
  have sound' := check_eq_sound_iff.mpr ⟨_, _, held', rfl⟩
  obtain ⟨diagnosed, compared, agree⟩ :=
    entry_points_agree ⟨.root, []⟩ (.value structLibrary) (.value emptyLibrary) .recorded
  obtain ⟨d, answered⟩ := diagnosed.mpr ⟨⟨_, sound⟩, _, sound'⟩
  obtain ⟨c, answered'⟩ :=
    compared.mpr ⟨⟨_, ⟨1, 2, 3, none, none⟩, sound, .recorded rfl (by decide)⟩, _, sound'⟩
  obtain ⟨same, _, records, _⟩ := agree d c answered answered'
  obtain ⟨_, _, _, _, again, again', delta⟩ := diagnose_eq_ok_iff.mp answered
  obtain ⟨rfl, rfl⟩ := held.unique again
  obtain ⟨rfl, rfl⟩ := held'.unique again'
  have changes : d.changes = [.removed ⟨["S"], .struct⟩ item] := by
    rw [delta, (Diagnosis.between_single entries free).2]
  refine ⟨item, d, c, answered, answered', changes, same, ?_⟩
  rw [records, changes]
  rfl

end Release

end ApiDelta
