import ApiDelta.Proofs.Lockstep
import ApiDelta.Release

/-!
What a check answers. A tree that cannot be loaded, read or flattened is an issue of the answer and not
a failure of the check. Two inputs escape this: a file name that no file can have, and an entry under a
key which is made of digits but denotes no number, met before any entry without a known kind.
-/
namespace ApiDelta

/-! ## Keys -/

namespace Tree

/-- A key of digits, not all of which are decimal. -/
def UnreadableKey (key : String) : Prop :=
  key ≠ "" ∧ (∀ c ∈ key.toList, Text.isDigit c) ∧ ∃ c ∈ key.toList, ¬Text.isDecimal c

/-- What the look at the kinds passes: values that are no objects, and objects of a known kind under
keys that can be read. -/
def Passable (entry : String × Json) : Prop :=
  ∀ fields, entry.2 = .object fields → ¬UnreadableKey entry.1 ∧
    ∃ kind, fields.lookup "kind" = some (.text kind) ∧ kind ∈ Declaration.kinds

/-- An unreadable key is what the look at the kinds stops at. -/
inductive StopsAt (key : String) : Json → Prop where
  | index {fields inner : Schema.Fields} {before after : List (String × Json)}
      (holds : fields.lookup "index" = some (.object (before ++ (key, .object inner) :: after)))
      (passed : ∀ entry ∈ before, Passable entry) (unreadable : UnreadableKey key) :
      StopsAt key (.object fields)

theorem numberOfKey_eq_error_iff {key : String} {refusal : Refusal} :
    numberOfKey key = .error refusal ↔ UnreadableKey key ∧ refusal = .unreadableKey key := by
  have decimal := Text.decimalNumber?_isSome key.toList
  unfold numberOfKey
  by_cases digits : key ≠ "" ∧ key.toList.all Text.isDigit
  · have unreadable : UnreadableKey key ↔ ¬∀ c ∈ key.toList, Text.isDecimal c := by
      simpa [UnreadableKey, digits.1] using fun _ _ _ => by simpa using digits.2
    rw [if_pos digits, unreadable, ← decimal]
    cases Text.decimalNumber? key.toList <;> simp [eq_comm]
  · have readable : ¬UnreadableKey key := fun unreadable =>
      digits ⟨unreadable.1, List.all_eq_true.mpr unreadable.2.1⟩
    rw [if_neg digits]
    simp [readable]

theorem readable_of_numberOfKey {key : String} {id : Option Int} (read : numberOfKey key = .ok id) :
    ¬UnreadableKey key := by
  intro unreadable
  rw [numberOfKey_eq_error_iff.mpr ⟨unreadable, rfl⟩] at read
  cases read

theorem scanEntry_eq_ok_iff {key : String} {value : Json} :
    scanEntry key value = .ok () ↔ Passable (key, value) := by
  cases value with
  | object fields =>
    simp only [scanEntry, Passable, Json.object.injEq, forall_eq']
    cases read : numberOfKey key with
    | error refusal =>
      have unreadable := (numberOfKey_eq_error_iff.mp read).1
      simp [unreadable]
    | ok id =>
      have readable := readable_of_numberOfKey read
      dsimp only
      split
      · rename_i kind named
        simp [readable, named]
      · rename_i unnamed
        simp only [readable, reduceCtorEq, not_false_eq_true, true_and, false_iff]
        rintro ⟨kind, named, _⟩
        exact unnamed kind named
  | _ => simp [scanEntry, Passable]

/-- What has been passed does not count. -/
theorem scanEntries_append {before : List (String × Json)}
    (passed : ∀ entry ∈ before, Passable entry) (rest : List (String × Json)) :
    scanEntries (before ++ rest) = scanEntries rest := by
  induction before with
  | nil => rfl
  | cons entry before ih =>
    obtain ⟨here, later⟩ := List.forall_mem_cons.mp passed
    rw [List.cons_append, scanEntries, scanEntry_eq_ok_iff.mpr here]
    exact ih later

theorem scanEntries_eq_ok_iff {entries : List (String × Json)} :
    scanEntries entries = .ok () ↔ ∀ entry ∈ entries, Passable entry := by
  induction entries with
  | nil => simp [scanEntries]
  | cons entry rest ih =>
    rw [List.forall_mem_cons, ← ih, ← scanEntry_eq_ok_iff, scanEntries]
    cases scanEntry entry.1 entry.2 <;> simp

theorem scanEntry_eq_unreadable_iff {key other : String} {value : Json} :
    scanEntry key value = .error (.unreadableKey other) ↔
      (∃ fields, value = .object fields) ∧ UnreadableKey key ∧ other = key := by
  cases value with
  | object fields =>
    simp only [scanEntry]
    cases read : numberOfKey key with
    | error refusal =>
      obtain ⟨unreadable, rfl⟩ := numberOfKey_eq_error_iff.mp read
      simp [unreadable, eq_comm]
    | ok id =>
      have readable := readable_of_numberOfKey read
      dsimp only
      split
      · split <;> simp [readable]
      · simp [readable]
  | _ => simp [scanEntry]

/-- The look at the kinds goes on up to the first entry that it does not pass. -/
theorem scanEntries_eq_unreadable_iff {key : String} {entries : List (String × Json)} :
    scanEntries entries = .error (.unreadableKey key) ↔
      ∃ before fields after, entries = before ++ (key, .object fields) :: after ∧
        (∀ entry ∈ before, Passable entry) ∧ UnreadableKey key := by
  induction entries with
  | nil => simp [scanEntries]
  | cons entry rest ih =>
    obtain ⟨name, value⟩ := entry
    rw [scanEntries]
    cases first : scanEntry name value with
    | ok =>
      have passed := scanEntry_eq_ok_iff.mp first
      dsimp only
      rw [ih]
      constructor
      · rintro ⟨before, fields, after, rfl, passes, unreadable⟩
        exact ⟨(name, value) :: before, fields, after, rfl,
          List.forall_mem_cons.mpr ⟨passed, passes⟩, unreadable⟩
      · rintro ⟨before, fields, after, split, passes, unreadable⟩
        cases before with
        | nil =>
          cases split
          exact absurd unreadable (passed fields rfl).1
        | cons entry before =>
          cases split
          exact ⟨before, fields, after, rfl, (List.forall_mem_cons.mp passes).2, unreadable⟩
    | error refusal =>
      have stops : ¬Passable (name, value) := by
        rw [← scanEntry_eq_ok_iff, first]
        nofun
      constructor
      · rintro ⟨⟩
        obtain ⟨⟨fields, rfl⟩, unreadable, rfl⟩ := scanEntry_eq_unreadable_iff.mp first
        exact ⟨[], fields, rest, rfl, nofun, unreadable⟩
      · rintro ⟨before, fields, after, split, passes, unreadable⟩
        cases before with
        | nil =>
          cases split
          exact first.symm.trans (scanEntry_eq_unreadable_iff.mpr ⟨⟨fields, rfl⟩, unreadable, rfl⟩)
        | cons entry before =>
          cases split
          exact absurd (passes _ List.mem_cons_self) stops

/-- A value is refused for a key exactly if the look at the kinds stops there. -/
theorem ofJson?_eq_unreadable_iff {value : Json} {key : String} :
    ofJson? value = .error (.unreadableKey key) ↔ StopsAt key value := by
  constructor
  · intro refused
    cases value with
    | object fields =>
      simp only [ofJson?] at refused
      split at refused
      · rename_i refusal scanned
        cases refused
        unfold scan at scanned
        split at scanned
        · rename_i entries holds
          obtain ⟨before, inner, after, rfl, passed, unreadable⟩ :=
            scanEntries_eq_unreadable_iff.mp scanned
          exact .index holds passed unreadable
        · cases scanned
      · split at refused
        · cases refused
        · split at refused <;> cases refused
    | _ => cases refused
  · intro stops
    cases stops with
    | @index fields inner before after holds passed unreadable =>
      have scanned := scanEntries_eq_unreadable_iff.mpr
        ⟨before, inner, after, rfl, passed, unreadable⟩
      simp only [ofJson?, scan, holds, scanned]

theorem snapshot_outcome (tree : Tree) :
    tree.snapshot.outcome = (Snapshot.ofTree? tree).mapError Failure.malformed := by
  unfold snapshot Snapshot.ofTree?
  cases tree.walkAll <;> rfl

end Tree

/-! ## Answers -/

theorem Told.outcome_bind {α β : Type} (first : Told α) (next : α → Told β) :
    (first >>= next).outcome = first.outcome.bind fun value => (next value).outcome := by
  show (Told.bind first next).outcome = _
  unfold Told.bind
  cases first.outcome <;> rfl

/-- A file can only fail to be loaded, unless no file can have its name. -/
theorem Source.json_error {files : Files.Store} {source : Source} {failure : Failure}
    (failed : (source.json files).outcome = .error failure) :
    (∃ path fault, failure = .load path fault) ∨
      ∃ path fault, failure = .unnameable fault ∧ source = .file path ∧ path.fault? = some fault := by
  cases source with
  | value content => cases failed
  | file path =>
    simp only [json, load] at failed
    split at failed
    · rename_i fault faulty
      cases failed
      exact .inr ⟨path, fault, rfl, rfl, faulty⟩
    · split at failed
      · cases failed
        exact .inl ⟨_, _, rfl⟩
      · split at failed
        · cases failed
          exact .inl ⟨_, _, rfl⟩
        · cases failed

namespace Release

/-- The issue that a malformed tree is reported as. -/
def Issue.ofProblem (problem : Tree.Problem) : Issue :=
  ⟨problem.code, problem.message, problem.itemId, problem.faults?.getD []⟩

/-- The outcome of a check, as the tree and its source call for it. The last two are failures. -/
inductive Verdict (files : Files.Store) (source : Source) : Except Failure (Except Issue Sound) → Prop
    where
  | sound {content : Json} {tree : Tree} {s : Snapshot}
      (loaded : (source.json files).outcome = .ok content) (read : Tree.ofJson? content = .ok tree)
      (flattened : Snapshot.ofTree? tree = .ok s) :
      Verdict files source (.ok (.ok ⟨tree.crateName, tree.crateVersion, s.size⟩))
  | unloadable {path : String} {fault : LoadFault}
      (failed : (source.json files).outcome = .error (.load path fault)) :
      Verdict files source (.ok (.error ⟨fault.code, (Failure.load path fault).text, none, []⟩))
  | malformed {content : Json} {problem : Tree.Problem}
      (loaded : (source.json files).outcome = .ok content)
      (refused : Tree.ofJson? content = .error (.problem problem)) :
      Verdict files source (.ok (.error (.ofProblem problem)))
  | inconsistent {content : Json} {tree : Tree} {problem : Tree.Problem}
      (loaded : (source.json files).outcome = .ok content) (read : Tree.ofJson? content = .ok tree)
      (refused : Snapshot.ofTree? tree = .error problem) :
      Verdict files source (.ok (.error (.ofProblem problem)))
  | unreadableKey {content : Json} {key : String}
      (loaded : (source.json files).outcome = .ok content) (stops : Tree.StopsAt key content) :
      Verdict files source (.error (.unreadableKey key))
  | unnameable {path : Files.Path} {fault : Files.NameFault} (named : source = .file path)
      (faulty : path.fault? = some fault) : Verdict files source (.error (.unnameable fault))

/-- What becomes of the outcome of reading and flattening a tree. -/
def settle : Except Failure Sound → Except Failure (Except Issue Sound)
  | .ok sound => .ok (.ok sound)
  | .error failure =>
    match issue? failure with
    | some issue => .ok (.error issue)
    | none => .error failure

theorem check_outcome (files : Files.Store) (source : Source) :
    (check files source).outcome =
      settle ((source.json files).outcome.bind fun content =>
        ((Tree.ofJson? content).mapError Failure.ofRefusal).bind fun tree =>
          ((Snapshot.ofTree? tree).mapError Failure.malformed).map fun s =>
            ⟨tree.crateName, tree.crateVersion, s.size⟩) := by
  have tree : (source.tree files).outcome = (source.json files).outcome.bind fun content =>
      (Tree.ofJson? content).mapError Failure.ofRefusal := by
    rw [Source.tree, Told.outcome_bind]
    congr 1
    funext content
    cases Tree.ofJson? content <;> rfl
  unfold check
  generalize made : (do
    let tree ← source.tree files
    let snapshot ← tree.snapshot
    return ⟨tree.crateName, tree.crateVersion, snapshot.size⟩ : Told Sound) = checked
  have outcome : checked.outcome = (source.json files).outcome.bind fun content =>
      ((Tree.ofJson? content).mapError Failure.ofRefusal).bind fun tree =>
        ((Snapshot.ofTree? tree).mapError Failure.malformed).map fun s =>
          ⟨tree.crateName, tree.crateVersion, s.size⟩ := by
    rw [← made, Told.outcome_bind, tree]
    cases (source.json files).outcome with
    | error failure => rfl
    | ok content =>
      simp only [Except.bind]
      cases (Tree.ofJson? content).mapError Failure.ofRefusal with
      | error failure => rfl
      | ok tree =>
        simp only [Told.outcome_bind, Tree.snapshot_outcome]
        cases Snapshot.ofTree? tree <;> rfl
  rw [← outcome, settle.eq_def]
  dsimp only
  cases checked.outcome with
  | ok sound => rfl
  | error failure =>
    dsimp only
    cases issue? failure <;> rfl

/-- A verdict is what a check comes to. -/
theorem outcome_of_verdict {files : Files.Store} {source : Source}
    {outcome : Except Failure (Except Issue Sound)} (verdict : Verdict files source outcome) :
    (check files source).outcome = outcome := by
  rw [check_outcome]
  cases verdict with
  | sound loaded read flattened =>
    simp only [loaded, read, flattened, Except.bind, Except.mapError, Except.map, settle]
  | unloadable failed => simp only [failed, Except.bind, settle, issue?]
  | malformed loaded refused =>
    simp only [loaded, refused, Except.bind, Except.mapError, Failure.ofRefusal, settle, issue?,
      Issue.ofProblem]
  | inconsistent loaded read refused =>
    simp only [loaded, read, refused, Except.bind, Except.mapError, Except.map, settle, issue?,
      Issue.ofProblem]
  | unreadableKey loaded stops =>
    simp only [loaded, Tree.ofJson?_eq_unreadable_iff.mpr stops, Except.bind, Except.mapError,
      Failure.ofRefusal, settle, issue?]
  | @unnameable path fault named faulty =>
    have failed : (source.json files).outcome = .error (.unnameable fault) := by
      rw [named, Source.json, Source.load, faulty]
      rfl
    simp only [failed, Except.bind, settle, issue?]

/-- Every input has a verdict. -/
theorem exists_verdict (files : Files.Store) (source : Source) :
    ∃ outcome, Verdict files source outcome := by
  cases loaded : (source.json files).outcome with
  | error failure =>
    rcases Source.json_error loaded with ⟨path, fault, rfl⟩ | ⟨path, fault, rfl, named, faulty⟩
    · exact ⟨_, .unloadable loaded⟩
    · exact ⟨_, .unnameable named faulty⟩
  | ok content =>
    cases read : Tree.ofJson? content with
    | error refusal =>
      cases refusal with
      | problem problem => exact ⟨_, .malformed loaded read⟩
      | unreadableKey key =>
        exact ⟨_, .unreadableKey loaded (Tree.ofJson?_eq_unreadable_iff.mp read)⟩
    | ok tree =>
      cases flattened : Snapshot.ofTree? tree with
      | error problem => exact ⟨_, .inconsistent loaded read flattened⟩
      | ok s => exact ⟨_, .sound loaded read flattened⟩

/-- **What a check answers.** Its outcome is the one that the source and the tree call for: the size of
the snapshot if the tree is sound, and one issue if it cannot be loaded, is malformed or cannot be
flattened. There is an answer unless the source is a name that no file can have, with U+0000 in it or a
surrogate that does not stand for an octet, or the look at the kinds stops at a key of digits that
denotes no number. -/
theorem check_answers_unless (files : Files.Store) (source : Source) :
    (∀ outcome, (check files source).outcome = outcome ↔ Verdict files source outcome) ∧
      ((∃ answer, (check files source).outcome = .ok answer) ↔
        (∀ path, source = .file path → Files.IsName path.text) ∧
          ∀ content, (source.json files).outcome = .ok content →
            ∀ key, ¬Tree.StopsAt key content) := by
  have exact : ∀ outcome, (check files source).outcome = outcome ↔ Verdict files source outcome := by
    intro outcome
    refine ⟨fun same => ?_, outcome_of_verdict⟩
    obtain ⟨other, verdict⟩ := exists_verdict files source
    rw [outcome_of_verdict verdict] at same
    exact same ▸ verdict
  refine ⟨exact, ?_⟩
  constructor
  · rintro ⟨answer, answered⟩
    constructor
    · intro path named
      rw [← Files.nameFault?_eq_none_iff, Option.eq_none_iff_forall_ne_some]
      intro fault faulty
      have failed : (check files source).outcome = .error (.unnameable fault) :=
        outcome_of_verdict (.unnameable named faulty)
      rw [answered] at failed
      cases failed
    · intro content loaded key stops
      rw [outcome_of_verdict (.unreadableKey loaded stops)] at answered
      cases answered
  · rintro ⟨nameable, readable⟩
    obtain ⟨outcome, verdict⟩ := exists_verdict files source
    rw [outcome_of_verdict verdict]
    cases verdict with
    | sound | unloadable | malformed | inconsistent => exact ⟨_, rfl⟩
    | unreadableKey loaded stops => exact absurd stops (readable _ loaded _)
    | unnameable named faulty =>
      cases faulty.symm.trans (Files.nameFault?_eq_none_iff.mpr (nameable _ named))

def libraryRoot : String × Json :=
  ("0", .object [("kind", .text "module"), ("name", .text "lib")])

/-- An entry without a kind, under a key that is a digit but no decimal one. -/
def superscriptTree : Json :=
  .object [("index", .object [libraryRoot, ("²", .object [("name", .text "nokind")])])]

/-- The check of the tree with a superscript key fails and answers nothing. -/
theorem superscript_key_escapes :
    (check ⟨.root, []⟩ (.value superscriptTree)).outcome = .error (.unreadableKey "²") ∧
      ¬∃ answer, (check ⟨.root, []⟩ (.value superscriptTree)).outcome = .ok answer := by
  have passed : Tree.Passable libraryRoot := Tree.scanEntry_eq_ok_iff.mp (by decide)
  have single : "²".toList = ['²'] := rfl
  have unreadable : Tree.UnreadableKey "²" := by
    refine ⟨by decide, ?_, ?_⟩ <;> rw [single]
    · exact List.forall_mem_singleton.mpr (by decide)
    · exact ⟨'²', List.mem_singleton_self _, by decide⟩
  have holds : ([("index", .object [libraryRoot, ("²", .object [("name", .text "nokind")])])] :
      Schema.Fields).lookup "index" =
        some (.object ([libraryRoot] ++ ("²", .object [("name", .text "nokind")]) :: [])) := rfl
  have stops : Tree.StopsAt "²" superscriptTree :=
    .index holds (List.forall_mem_singleton.mpr passed) unreadable
  have escaped : (check ⟨.root, []⟩ (.value superscriptTree)).outcome =
      .error (.unreadableKey "²") := outcome_of_verdict (.unreadableKey rfl stops)
  refine ⟨escaped, ?_⟩
  rintro ⟨answer, answered⟩
  rw [escaped] at answered
  cases answered

end Release

end ApiDelta
