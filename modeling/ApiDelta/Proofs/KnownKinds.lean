import ApiDelta.Proofs.Checking

/-!
Kinds, looked at twice. The look at the kinds goes over an index before the schema does, with a list of
kinds of its own, and it passes exactly the entries whose tag the schema knows. So an entry without a
known kind is told by the look, as the first of its sort and whatever else is wrong with the tree, and
the schema is never left with a tag to complain of: only the choice between the records can do that, and
for an entry that has been passed it finds a record.
-/
namespace ApiDelta

namespace Schema

/-! ## Faults about tags -/

/-- The tag is what is wrong: there is none, or none that is known. -/
@[simp]
def Reason.IsAboutTag : Reason → Prop
  | .tagAbsent _ => True
  | .tagUnknown .. => True
  | _ => False

theorem Reason.isAboutTag_iff {reason : Reason} : reason.IsAboutTag ↔
    reason.tag = "union_tag_not_found" ∨ reason.tag = "union_tag_invalid" := by
  cases reason <;> simp [tag]

namespace Checked

variable {α β : Type} {f : α → β} {checked : Checked α} {function : Checked (α → β)}

/-- Whatever has been found wrong, it is no tag. -/
def Tagless : Checked α → Prop
  | .sound _ => True
  | .faulty faults => ∀ fault ∈ faults, ¬fault.reason.IsAboutTag

@[simp]
theorem tagless_sound (value : α) : (sound value).Tagless :=
  trivial

@[simp]
theorem tagless_map : (checked.map f).Tagless ↔ checked.Tagless := by
  cases checked <;> rfl

@[simp]
theorem tagless_functor : (f <$> checked).Tagless ↔ checked.Tagless :=
  tagless_map

@[simp]
theorem tagless_apply : (function.apply checked).Tagless ↔ function.Tagless ∧ checked.Tagless := by
  cases function <;> cases checked <;> simp [apply, Tagless, or_imp, forall_and]

@[simp]
theorem tagless_seq : (function <*> checked).Tagless ↔ function.Tagless ∧ checked.Tagless :=
  tagless_apply

@[simp]
theorem tagless_under {step : Step} : (checked.under step).Tagless ↔ checked.Tagless := by
  cases checked <;> simp [under, Tagless, Fault.under]

@[simp]
theorem tagless_fault {reason : Reason} : (fault reason : Checked α).Tagless ↔ ¬reason.IsAboutTag := by
  simp [fault, Tagless, Fault.here]

theorem tagless_all {step : Nat → Step} {check : α → Checked β} (each : ∀ x, (check x).Tagless)
    (start : Nat) (xs : List α) : (all step check start xs).Tagless := by
  induction xs generalizing start with
  | nil => trivial
  | cons x rest ih => simp [all, each, ih]

end Checked

/-! ### Scalars and lists -/

section Scalars

open Checked

variable {α : Type}

@[simp]
theorem tagless_text (value : Json) : (text value).Tagless := by
  cases value <;> simp [text]

@[simp]
theorem tagless_textOrNull (value : Json) : (textOrNull value).Tagless := by
  cases value <;> simp [textOrNull]

@[simp]
theorem tagless_ofCharacters {value : String} {made : Checked α} (tagless : made.Tagless) :
    (ofCharacters value made).Tagless := by
  unfold ofCharacters
  split
  · exact tagless
  · simp

@[simp]
theorem tagless_integer (value : Json) : (integer value).Tagless := by
  cases value with
  | real value =>
    simp only [integer, integerOfReal]
    split
    · simp
    · split
      · simp
      · split <;> simp
  | text value =>
    refine tagless_ofCharacters ?_
    cases Numeral.read value.toList with
    | ok n => simp
    | error refusal => cases refusal <;> simp [numeralReason]
  | _ => simp [integer]

@[simp]
theorem tagless_integerOrNull (value : Json) : (integerOrNull value).Tagless := by
  cases value <;> simp [integerOrNull]

theorem tagless_booleanOfInteger (value : Int) : (booleanOfInteger value).Tagless := by
  unfold booleanOfInteger
  split_ifs <;> simp

@[simp]
theorem tagless_boolean (value : Json) : (boolean value).Tagless := by
  cases value with
  | int value => exact tagless_booleanOfInteger value
  | real value =>
    rw [boolean]
    cases integerOfReal value with
    | sound n => exact tagless_booleanOfInteger n
    | faulty faults => simp
  | text value =>
    refine tagless_ofCharacters ?_
    split_ifs <;> simp
  | _ => simp [boolean]

@[simp]
theorem tagless_literal (table : List (String × α)) (value : Json) : (literal table value).Tagless := by
  cases value with
  | text word =>
    refine tagless_ofCharacters ?_
    cases table.lookup word <;> simp
  | _ => simp [literal]

@[simp]
theorem tagless_listOf {element : Json → Checked α} (each : ∀ value, (element value).Tagless)
    (value : Json) : (listOf element value).Tagless := by
  cases value with
  | array items => exact tagless_all each 0 items
  | _ => simp [listOf]

end Scalars

/-! ### Records -/

section Records

open Checked

variable {α : Type} {key : String} {fields : Fields} {check : Json → Checked α}

@[simp]
theorem tagless_required (tagless : ∀ value, (check value).Tagless) :
    (required fields key check).Tagless := by
  unfold required
  split
  · simp [tagless]
  · simp [Tagless]

@[simp]
theorem tagless_optional {default : α} (tagless : ∀ value, (check value).Tagless) :
    (optional fields key default check).Tagless := by
  unfold optional
  split <;> simp [tagless]

theorem tagless_noExtras (known : List String) : (noExtras known fields).Tagless := by
  unfold noExtras
  split
  · trivial
  · intro fault member
    obtain ⟨field, _, rfl⟩ := List.mem_map.mp member
    exact id

@[simp]
theorem tagless_closed {known : List String} {check : Fields → Checked α}
    (tagless : ∀ fields, (check fields).Tagless) : (closed known check fields).Tagless := by
  unfold closed
  split
  · simp [tagless, tagless_noExtras]
  · simp

@[simp]
theorem tagless_record {name : String} {check : Fields → Checked α}
    (tagless : ∀ fields, (check fields).Tagless) (value : Json) : (record name check value).Tagless := by
  cases value with
  | object fields => exact tagless fields
  | _ => simp [record]

/-- A choice finds no fault with a tag that names an alternative. -/
theorem tagless_choice {alternatives : List (String × (Fields → Checked α))} {tag : String}
    (named : fields.lookup key = some (.text tag)) (offered : tag ∈ alternatives.map Prod.fst)
    (tagless : ∀ alternative ∈ alternatives, ∀ fields, (alternative.2 fields).Tagless) :
    (choice key alternatives (.object fields)).Tagless := by
  obtain ⟨check, found⟩ : ∃ check, alternatives.lookup tag = some check := by
    obtain ⟨alternative, member, rfl⟩ := List.mem_map.mp offered
    exact Option.isSome_iff_exists.mp (List.lookup_isSome_iff.mpr ⟨alternative, member, beq_self_eq_true _⟩)
  obtain ⟨before, after, shape, _⟩ := List.lookup_eq_some_iff.mp found
  have member : (tag, check) ∈ alternatives := shape ▸ List.mem_append_right before List.mem_cons_self
  simp only [choice, named, found, tagless_under]
  exact tagless (tag, check) member fields

end Records

end Schema

namespace Tree

open Schema Schema.Checked

/-! ### Entries and documents -/

@[simp]
theorem tagless_parameter (called : String) (value : Json) : (Parameter.check called value).Tagless :=
  tagless_record (fun _ => tagless_closed fun _ => by simp) value

@[simp]
theorem tagless_header (called : String) (value : Json) : (Header.check called value).Tagless :=
  tagless_record (fun _ => tagless_closed fun _ => by simp) value

@[simp]
theorem tagless_forType (fields : Fields) : (ImplDecl.checkForType fields).Tagless := by
  unfold ImplDecl.checkForType
  split <;> simp

/-- No record of a kind holds a choice. -/
theorem tagless_checks : ∀ pair ∈ Declaration.checks, ∀ fields, (pair.2 fields).Tagless := by
  simp [Declaration.checks, InertKind.all, ModuleDecl.check, FunctionDecl.check,
    FunctionDecl.checkCallable, StructDecl.check, UnionDecl.check, EnumDecl.check, VariantDecl.check,
    FieldDecl.check, TypedefDecl.check, TraitDecl.check, ImplDecl.check, AssocTypeDecl.check,
    AssocConstDecl.check, ConstantDecl.check, StaticDecl.check, ReexportDecl.check, InertDecl.check,
    name, numbers, texts, flag, textOption]

/-- In an entry that the look at the kinds has passed, the schema finds no fault with the tag. -/
theorem tagless_entry {entry : String × Json} (passed : Passable entry) :
    (Entry.check entry.2).Tagless := by
  obtain ⟨key, value⟩ := entry
  cases value with
  | object fields =>
    obtain ⟨_, kind, named, known⟩ := passed fields rfl
    refine tagless_choice named ?_ ?_
    · rw [List.map_map]
      rw [← Declaration.map_fst_checks] at known
      exact known
    · rintro alternative member fields
      obtain ⟨pair, listed, rfl⟩ := List.mem_map.mp member
      simp [Entry.checkWith, flag, tagless_checks pair listed]
  | _ => simp [Entry.check, choice]

theorem tagless_checkKey (key : String) : (checkKey key).Tagless := by
  simp [checkKey]

theorem tagless_checkPairs {entries : List (String × Json)} (passed : ∀ entry ∈ entries, Passable entry) :
    (checkPairs entries).Tagless := by
  induction entries with
  | nil => trivial
  | cons entry rest ih =>
    obtain ⟨here, later⟩ := List.forall_mem_cons.mp passed
    simp [checkPairs, tagless_checkKey, tagless_entry here, ih later]

theorem tagless_document {fields : Fields} {entries : List (String × Json)}
    (holds : fields.lookup "index" = some (.object entries)) (passed : ∀ entry ∈ entries, Passable entry) :
    (Document.check fields).Tagless := by
  have index : (required fields "index" checkIndex).Tagless := by
    simp [required, holds, checkIndex, tagless_checkPairs passed]
  simp [Document.check, index]

/-! ## The look at the kinds -/

/-- The kind of a record is one that entries may have. -/
def HasKnownKind (record : Fields) : Prop :=
  ∃ kind, record.lookup "kind" = some (.text kind) ∧ kind ∈ Declaration.kinds

/-- What is told of the entry under a key if its kind is missing or no text, and if it is unknown. -/
inductive KindFault (key : String) (id : Option Int) (record : Fields) : ProblemCode → Problem → Prop where
  | notText (unnamed : ∀ kind, record.lookup "kind" ≠ some (.text kind)) :
      KindFault key id record .invalidStructure (.kindNotText key id)
  | unknown {kind : String} (named : record.lookup "kind" = some (.text kind))
      (unsupported : kind ∉ Declaration.kinds) :
      KindFault key id record .unknownItemKind (.kindUnknown key id (Text.quoted kind))

section Look

variable {key : String} {record fields : Fields} {before entries : List (String × Json)}

theorem KindFault.code_eq {id : Option Int} {code : ProblemCode} {problem : Problem}
    (fault : KindFault key id record code problem) : problem.code = code ∧ problem.itemId = id := by
  cases fault <;> exact ⟨rfl, rfl⟩

/-- An entry without a known kind is told, if its key can be read. -/
theorem scanEntry_of_unknown (readable : ¬UnreadableKey key) (unknown : ¬HasKnownKind record) :
    ∃ id code problem, numberOfKey key = .ok id ∧ KindFault key id record code problem ∧
      scanEntry key (.object record) = .error (.problem problem) := by
  cases read : numberOfKey key with
  | error refusal => exact absurd (numberOfKey_eq_error_iff.mp read).1 readable
  | ok id =>
    simp only [scanEntry, read]
    split
    · rename_i kind named
      have unsupported : kind ∉ Declaration.kinds := fun known => unknown ⟨kind, named, known⟩
      rw [if_neg (mt List.contains_iff_mem.mp unsupported)]
      exact ⟨id, _, _, rfl, .unknown named unsupported, rfl⟩
    · rename_i unnamed
      exact ⟨id, _, _, rfl, .notText fun kind named => unnamed kind named, rfl⟩

/-- Where an entry has no known kind, and the keys up to it can be read, a first one has none. -/
theorem exists_first_unknown (after : List (String × Json)) (unknown : ¬HasKnownKind record)
    (readable : ∀ entry ∈ before ++ [(key, Json.object record)],
      ∀ fields, entry.2 = .object fields → ¬UnreadableKey entry.1) :
    ∃ before' key' record' after',
      before ++ (key, .object record) :: after = before' ++ (key', .object record') :: after' ∧
      (∀ entry ∈ before', Passable entry) ∧ ¬HasKnownKind record' ∧ ¬UnreadableKey key' := by
  induction before with
  | nil =>
    exact ⟨[], key, record, after, rfl, nofun, unknown, readable _ List.mem_cons_self record rfl⟩
  | cons entry before ih =>
    obtain ⟨here, later⟩ := List.forall_mem_cons.mp readable
    by_cases passed : Passable entry
    · obtain ⟨before', key', record', after', shape, passes, first⟩ := ih later
      exact ⟨entry :: before', key', record', after', congrArg _ shape,
        List.forall_mem_cons.mpr ⟨passed, passes⟩, first⟩
    · obtain ⟨key', value⟩ := entry
      simp only [Passable, not_forall] at passed
      obtain ⟨record', rfl, failed⟩ := passed
      have sound := here record' rfl
      exact ⟨[], key', record', _, rfl, nofun, fun known => failed ⟨sound, known⟩, sound⟩

theorem scanEntry_ne_schema {value : Json} {faults : List Fault} :
    scanEntry key value ≠ .error (.problem (.schema faults)) := by
  cases value with
  | object record =>
    cases read : numberOfKey key with
    | error refusal =>
      obtain ⟨_, rfl⟩ := numberOfKey_eq_error_iff.mp read
      simp [scanEntry, read]
    | ok id =>
      simp only [scanEntry, read]
      split
      · split <;> simp
      · simp
  | _ => simp [scanEntry]

/-- The look at the kinds says nothing of the schema. -/
theorem scanEntries_ne_schema {faults : List Fault} :
    scanEntries entries ≠ .error (.problem (.schema faults)) := by
  induction entries with
  | nil => simp [scanEntries]
  | cons entry rest ih =>
    rw [scanEntries]
    cases first : scanEntry entry.1 entry.2 with
    | ok => exact ih
    | error refusal =>
      rintro ⟨⟩
      exact scanEntry_ne_schema first

theorem rooted_ne_schema {document : Document} {faults : List Fault} :
    document.rooted ≠ .error (.schema faults) := by
  unfold Document.rooted
  split
  · simp
  · split
    · simp
    · split <;> simp

/-- Where the schema is asked, the look at the kinds has passed every entry. -/
theorem passable_of_schema {faults : List Fault}
    (holds : fields.lookup "index" = some (.object entries))
    (refused : ofJson? (.object fields) = .error (.problem (.schema faults))) :
    (∀ entry ∈ entries, Passable entry) ∧ Document.check fields = .faulty faults := by
  have looked : scan fields = scanEntries entries := by
    simp only [scan, holds]
  simp only [ofJson?, looked] at refused
  cases scanned : scanEntries entries with
  | error refusal =>
    rw [scanned] at refused
    cases refused
    exact absurd scanned scanEntries_ne_schema
  | ok =>
    refine ⟨scanEntries_eq_ok_iff.mp scanned, ?_⟩
    rw [scanned] at refused
    cases checked : Document.check fields with
    | faulty found =>
      rw [checked] at refused
      cases refused
      rfl
    | sound document =>
      rw [checked] at refused
      cases settled : document.rooted with
      | error problem =>
        simp only [settled, Except.error.injEq, Refusal.problem.injEq] at refused
        exact absurd (refused ▸ settled) rooted_ne_schema
      | ok tree => simp [settled] at refused

end Look

/-- **The look at the kinds and the schema agree.** Where an index is an object, the schema never
complains of a tag. And if some entry of the index that is an object has no known kind, and the keys of
the objects up to it can be read, then the first of these entries is what is told, with one code for a
kind that is missing or no text and another for one that is unknown, whatever else is wrong. -/
theorem kinds_and_schema_agree {fields : Fields} {entries : List (String × Json)}
    (holds : fields.lookup "index" = some (.object entries)) :
    (∀ faults, ofJson? (.object fields) = .error (.problem (.schema faults)) → ∀ fault ∈ faults,
      fault.reason.tag ≠ "union_tag_not_found" ∧ fault.reason.tag ≠ "union_tag_invalid") ∧
    ∀ before key record after, entries = before ++ (key, .object record) :: after →
      ¬HasKnownKind record →
      (∀ entry ∈ before ++ [(key, Json.object record)],
        ∀ fields, entry.2 = .object fields → ¬UnreadableKey entry.1) →
      ∃ before' key' record' after' id code problem,
        entries = before' ++ (key', .object record') :: after' ∧
        (∀ entry ∈ before', ∀ record, entry.2 = .object record → HasKnownKind record) ∧
        numberOfKey key' = .ok id ∧ KindFault key' id record' code problem ∧
        problem.code = code ∧ problem.itemId = id ∧
        ofJson? (.object fields) = .error (.problem problem) := by
  constructor
  · intro faults refused fault member
    obtain ⟨passed, checked⟩ := passable_of_schema holds refused
    have tagless := tagless_document holds passed
    rw [checked] at tagless
    have other := mt Reason.isAboutTag_iff.mpr (tagless fault member)
    exact not_or.mp other
  · rintro before key record after rfl unknown readable
    obtain ⟨before', key', record', after', shape, passed, first, sound⟩ :=
      exists_first_unknown after unknown readable
    obtain ⟨id, code, problem, read, fault, told⟩ := scanEntry_of_unknown sound first
    refine ⟨before', key', record', after', id, code, problem, shape,
      fun entry earlier record object => (passed entry earlier record object).2, read, fault,
      fault.code_eq.1, fault.code_eq.2, ?_⟩
    have stopped : scan fields = .error (.problem problem) := by
      simp only [scan, holds, shape, scanEntries_append passed, scanEntries, told]
    simp only [ofJson?, stopped]

/-- A root module without a name, and a number for an entry. -/
def shapelessEntries : List (String × Json) :=
  [("0", .object [("kind", .text "module")]), ("x", .int 7)]

/-- Two more entries, of a kind that is not known and of none. -/
def newerEntries : List (String × Json) :=
  shapelessEntries ++ [("5", .object [("kind", .text "hologram")]), ("6", .object [])]

/-- The schema complains of a name, a key and an entry, and of no tag. With the unknown kind the tree is
refused for that. -/
theorem kinds_and_schema_agree_newer :
    (∃ faults, ofJson? (.object [("index", .object shapelessEntries)]) = .error (.problem (.schema faults)) ∧
      faults.map (·.reason) = [.missing, .unreadableInteger, .notChoice] ∧ ∀ fault ∈ faults,
        fault.reason.tag ≠ "union_tag_not_found" ∧ fault.reason.tag ≠ "union_tag_invalid") ∧
    ∃ key record, (key, Json.object record) ∈ newerEntries ∧
      KindFault key (some 5) record .unknownItemKind (.kindUnknown "5" (some 5) (Text.quoted "hologram")) ∧
      ofJson? (.object [("index", .object newerEntries)]) =
        .error (.problem (.kindUnknown "5" (some 5) (Text.quoted "hologram"))) := by
  constructor
  · have refused : ∃ faults, ofJson? (.object [("index", .object shapelessEntries)]) =
        .error (.problem (.schema faults)) ∧
          faults.map (·.reason) = [.missing, .unreadableInteger, .notChoice] := ⟨_, rfl, rfl⟩
    obtain ⟨faults, refused, reasons⟩ := refused
    exact ⟨faults, refused, reasons, (kinds_and_schema_agree rfl).1 faults refused⟩
  · have evaluated : ofJson? (.object [("index", .object newerEntries)]) =
        .error (.problem (.kindUnknown "5" (some 5) (Text.quoted "hologram"))) := by rfl
    have readable : ∀ entry ∈ shapelessEntries ++ [("5", Json.object [("kind", .text "hologram")])],
        ∀ fields, entry.2 = .object fields → ¬UnreadableKey entry.1 := by
      intro entry member _ _
      simp only [shapelessEntries, List.cons_append, List.nil_append, List.mem_cons, List.not_mem_nil,
        or_false] at member
      rcases member with rfl | rfl | rfl
      · exact readable_of_numberOfKey (show numberOfKey "0" = .ok (some 0) from rfl)
      · exact readable_of_numberOfKey (show numberOfKey "x" = .ok none from rfl)
      · exact readable_of_numberOfKey (show numberOfKey "5" = .ok (some 5) from rfl)
    have unknown : ¬HasKnownKind [("kind", .text "hologram")] := by
      rintro ⟨kind, ⟨⟩, known⟩
      revert known
      decide
    have holds : List.lookup "index" [("index", Json.object newerEntries)] =
        some (.object newerEntries) := rfl
    obtain ⟨before, key, record, after, id, code, problem, shape, _, _, fault, same, number, told⟩ :=
      (kinds_and_schema_agree holds).2 _ _ _ _ rfl unknown readable
    have found : problem = .kindUnknown "5" (some 5) (Text.quoted "hologram") := by
      simpa [told] using evaluated
    subst found same number
    exact ⟨key, record, shape ▸ List.mem_append_right before List.mem_cons_self, fault, told⟩

end Tree

end ApiDelta
