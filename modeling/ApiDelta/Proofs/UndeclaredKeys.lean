import ApiDelta.Proofs.NormalForms

/-!
Keys that no record declares. Extractors attach documentation, spans and links to a tree and to its
entries. A record is checked by what stands under the keys that it declares, so two objects that agree
under these are read alike. Entry by entry this carries over to whole trees: whatever else stands in
them, they are read as the same tree or refused for the same reason, with the same faults in the same
places, and what is made of a tree is made of what was read.
-/
namespace ApiDelta

namespace Schema

/-! ## Objects that agree under some keys -/

/-- The keys lead to the same values in both objects. -/
def SameUnder (keys : List String) (fields fields' : Fields) : Prop :=
  ∀ key ∈ keys, fields'.lookup key = fields.lookup key

section Edits

variable {keys : List String} {fields fields' fields'' : Fields} {key : String}

theorem SameUnder.trans (first : SameUnder keys fields fields')
    (second : SameUnder keys fields' fields'') : SameUnder keys fields fields'' :=
  fun key member => (second key member).trans (first key member)

/-- Another key may be added, or given another value. -/
theorem SameUnder.put (other : key ∉ keys) (value : Json) :
    SameUnder keys fields (Json.put fields key value) := by
  intro kept member
  have apart : kept ≠ key := fun same => other (same ▸ member)
  rw [Json.lookup_put, if_neg apart]

/-- Another key may be removed. -/
theorem SameUnder.erase (other : key ∉ keys) :
    SameUnder keys fields (fields.filter (·.1 ≠ key)) := by
  intro kept member
  have apart : kept ≠ key := fun same => other (same ▸ member)
  induction fields with
  | nil => rfl
  | cons field rest ih =>
    obtain ⟨name, value⟩ := field
    by_cases dropped : name = key
    · rw [List.filter_cons_of_neg (by simpa using dropped), ih, Json.lookup_cons_eq,
        if_neg (dropped ▸ apart)]
    · rw [List.filter_cons_of_pos (by simpa using dropped), Json.lookup_cons_eq,
        Json.lookup_cons_eq, ih]

end Edits

/-- The check of a record looks at the values under the given keys, and at nothing else. -/
def ReadsOnly {α : Type} (keys : List String) (check : Fields → Checked α) : Prop :=
  ∀ fields fields', SameUnder keys fields fields' → check fields' = check fields

end Schema

namespace Tree

open Schema

/-! ## Declared keys -/

/-- The keys that the record of each kind declares. An implementation has two for its type. -/
def Declaration.recordKeys : List (String × List String) := [
  ("module", ["name", "items"]),
  ("function", ["name", "params", "output", "generics", "header", "has_body"]),
  ("method", ["name", "params", "output", "generics", "header", "has_body"]),
  ("struct", ["name", "struct_kind", "generics", "fields", "fields_stripped", "impls"]),
  ("union", ["name", "generics", "fields", "fields_stripped", "impls"]),
  ("enum", ["name", "generics", "variants", "variants_stripped", "impls"]),
  ("variant", ["name", "variant_kind", "fields", "fields_stripped"]),
  ("struct_field", ["name", "type"]),
  ("typedef", ["name", "type", "generics"]),
  ("trait", ["name", "generics", "bounds", "items", "is_unsafe", "is_auto"]),
  ("impl", ["for", "trait", "generics", "items", "is_unsafe", "negative", "synthetic", "blanket",
    "for_"]),
  ("assoc_type", ["name", "generics", "bounds", "default"]),
  ("assoc_const", ["name", "type", "default"]),
  ("constant", ["name", "type", "value"]),
  ("static", ["name", "type", "mutable", "value"]),
  ("import", ["name", "source", "target", "glob"])] ++
  InertKind.all.map fun kind => (kind.label, ["name"])

/-- No record looks up more than the keys that it declares. -/
theorem Declaration.checks_readOnly : List.Forall₂
    (fun kind record => kind.1 = record.1 ∧ ReadsOnly record.2 kind.2) checks recordKeys := by
  simp +contextual [checks, recordKeys, InertKind.all, ReadsOnly, SameUnder, required, Schema.optional,
    ModuleDecl.check, FunctionDecl.check, FunctionDecl.checkCallable, StructDecl.check, UnionDecl.check,
    EnumDecl.check, VariantDecl.check, FieldDecl.check, TypedefDecl.check, TraitDecl.check,
    ImplDecl.check, ImplDecl.checkForType, AssocTypeDecl.check, AssocConstDecl.check,
    ConstantDecl.check, StaticDecl.check, ReexportDecl.check, InertDecl.check, name, numbers, texts,
    flag, textOption]

/-- The keys that an entry declares: its kind, and if the kind is known, the flag that every entry has
and the keys of the record. -/
def declaredKeys (fields : Fields) : List String :=
  "kind" :: match fields.lookup "kind" with
    | some (.text kind) =>
      match Declaration.recordKeys.lookup kind with
      | some keys => "deprecated" :: keys
      | none => []
    | _ => []

/-- The declared keys of an entry are those under which it is written, and for an implementation the
other one for its type. -/
theorem declaredKeys_written {entry : Entry} {fields : Fields} (written : entry.toJson = .object fields) :
    declaredKeys fields = fields.map Prod.fst ++ match entry.declaration with
      | .impl _ => ["for_"]
      | _ => [] := by
  obtain ⟨deprecated, declaration⟩ := entry
  cases written
  cases declaration with
  | inert decl =>
    obtain ⟨kind, name⟩ := decl
    cases kind <;> rfl
  | _ => rfl

/-! ## The same entries, other keys apart -/

/-- Two values of an index are the same, or they are objects that agree under the keys they declare. -/
inductive SameEntry : Json → Json → Prop where
  | refl (value : Json) : SameEntry value value
  | record {fields fields' : Fields} (same : SameUnder (declaredKeys fields) fields fields') :
      SameEntry (.object fields) (.object fields')

/-- The same keys in the same order, and under each of them the same entry. -/
abbrev SameEntries : List (String × Json) → List (String × Json) → Prop :=
  List.Forall₂ fun entry entry' => entry'.1 = entry.1 ∧ SameEntry entry.2 entry'.2

inductive SameIndex : Json → Json → Prop where
  | refl (value : Json) : SameIndex value value
  | entries {entries entries' : List (String × Json)} (same : SameEntries entries entries') :
      SameIndex (.object entries) (.object entries')

/-- Two values are the same, or they are objects that agree under the keys that a tree declares, its
entries up to other keys. -/
inductive SameDocument : Json → Json → Prop where
  | refl (value : Json) : SameDocument value value
  | document {fields fields' : Fields}
      (same : SameUnder ["format_version", "crate_version", "root"] fields fields')
      (index : Option.Rel SameIndex (fields.lookup "index") (fields'.lookup "index")) :
      SameDocument (.object fields) (.object fields')

section Reading

variable {value value' : Json} {fields fields' : Fields} {entries entries' : List (String × Json)}

theorem SameUnder.kind_eq (same : SameUnder (declaredKeys fields) fields fields') :
    fields'.lookup "kind" = fields.lookup "kind" :=
  same "kind" List.mem_cons_self

/-- In lists whose keys go together, a key leads to values that do. -/
theorem exists_of_lookup {α β : Type} {R : α → β → Prop} {left : List (String × α)}
    {right : List (String × β)} (paired : List.Forall₂ (fun a b => a.1 = b.1 ∧ R a.2 b.2) left right)
    {key : String} {x : α} (found : left.lookup key = some x) :
    ∃ y, right.lookup key = some y ∧ R x y := by
  induction paired with
  | nil => cases found
  | @cons first first' _ _ head _ ih =>
    obtain ⟨name, x'⟩ := first
    obtain ⟨name', y⟩ := first'
    obtain ⟨rfl, related⟩ := head
    rw [List.lookup_cons] at found ⊢
    cases here : key == name with
    | true =>
      simp only [here, Option.some.injEq] at found
      exact ⟨y, rfl, found ▸ related⟩
    | false =>
      simp only [here] at found
      exact ih found

/-- An entry is checked by its flag and by the keys of its record. -/
theorem Entry.checks_readOnly : List.Forall₂
    (fun kind record => kind.1 = record.1 ∧ ReadsOnly ("deprecated" :: record.2) kind.2)
    (Declaration.checks.map fun kind => (kind.1, checkWith kind.2))
    Declaration.recordKeys := by
  refine List.forall₂_map_left_iff.mpr (Declaration.checks_readOnly.imp fun kind record both => ?_)
  refine ⟨both.1, fun fields fields' same => ?_⟩
  obtain ⟨flagged, rest⟩ := List.forall_mem_cons.mp same
  simp only [checkWith, flag, Schema.optional, flagged, both.2 fields fields' rest]

theorem SameEntry.check_eq (same : SameEntry value value') : Entry.check value' = Entry.check value := by
  cases same with
  | refl => rfl
  | @record fields fields' same =>
    simp only [Entry.check, choice, SameUnder.kind_eq same]
    cases named : fields.lookup "kind" with
    | none => rfl
    | some tag =>
      cases tag with
      | text word =>
        -- Where the tag names no record, nothing but the tag is told.
        dsimp only
        split
        · rename_i check found
          obtain ⟨keys, recorded, reads⟩ := exists_of_lookup
            (R := fun check keys => ReadsOnly ("deprecated" :: keys) check) Entry.checks_readOnly found
          simp only [declaredKeys, named, recorded] at same
          rw [reads fields fields' (List.forall_mem_cons.mp same).2]
        · rfl
      | _ => rfl

theorem SameEntry.scanEntry_eq (same : SameEntry value value') (key : String) :
    scanEntry key value' = scanEntry key value := by
  cases same with
  | refl => rfl
  | record same => simp only [scanEntry, SameUnder.kind_eq same]

theorem SameEntries.scanEntries_eq (same : SameEntries entries entries') :
    scanEntries entries' = scanEntries entries := by
  induction same with
  | nil => rfl
  | cons head _ ih =>
    obtain ⟨key, entry⟩ := head
    rw [scanEntries, scanEntries, key, entry.scanEntry_eq, ih]

theorem SameEntries.checkPairs_eq (same : SameEntries entries entries') :
    checkPairs entries' = checkPairs entries := by
  induction same with
  | nil => rfl
  | cons head _ ih =>
    obtain ⟨key, entry⟩ := head
    rw [checkPairs, checkPairs, key, entry.check_eq, ih]

theorem SameIndex.checkIndex_eq (same : SameIndex value value') : checkIndex value' = checkIndex value := by
  cases same with
  | refl => rfl
  | entries same => rw [checkIndex, checkIndex, SameEntries.checkPairs_eq same]

theorem scan_eq (index : Option.Rel SameIndex (fields.lookup "index") (fields'.lookup "index")) :
    scan fields' = scan fields := by
  unfold scan
  generalize fields.lookup "index" = held, fields'.lookup "index" = held' at index ⊢
  cases index with
  | none => rfl
  | some same =>
    cases same with
    | refl => rfl
    | entries same => exact SameEntries.scanEntries_eq same

theorem Document.check_eq (same : SameUnder ["format_version", "crate_version", "root"] fields fields')
    (index : Option.Rel SameIndex (fields.lookup "index") (fields'.lookup "index")) :
    check fields' = check fields := by
  have entries : required fields' "index" checkIndex = required fields "index" checkIndex := by
    unfold required
    generalize fields.lookup "index" = held, fields'.lookup "index" = held' at index ⊢
    cases index with
    | none => rfl
    | some same => exact congrArg (Checked.under (.key "index")) same.checkIndex_eq
  simp only [SameUnder, List.forall_mem_cons] at same
  obtain ⟨format, version, root, _⟩ := same
  simp only [check, Schema.optional, format, version, root, entries]

theorem SameDocument.ofJson?_eq (same : SameDocument value value') : ofJson? value' = ofJson? value := by
  cases same with
  | refl => rfl
  | document same index => simp only [ofJson?, scan_eq index, Document.check_eq same index]

end Reading

/-- **Keys that nothing declares never matter.** A tree whose entries, and which itself, hold other keys
or other values beside the declared ones is read as the same tree or refused for the same reason, down
to the faults and where they are. So it is flattened to the same items, with the same notices, and
compared with any other tree alike, from whichever side. -/
theorem undeclared_keys_never_matter {tree tree' : Json} (same : SameDocument tree tree') :
    ofJson? tree' = ofJson? tree ∧ ∀ files,
      (Source.value tree').snapshot files = (Source.value tree).snapshot files ∧
      ∀ other current,
        Release.diff files (.value tree') other current =
          Release.diff files (.value tree) other current ∧
        Release.diff files other (.value tree') current =
          Release.diff files other (.value tree) current := by
  have read := same.ofJson?_eq
  refine ⟨read, fun files => ⟨Source.snapshot_value_congr read files, fun other current => ?_⟩⟩
  have held := Source.tree_value_congr read files
  exact ⟨by rw [Release.diff, Release.diff, held], by rw [Release.diff, Release.diff, held]⟩

def demoModule : Fields :=
  [("kind", .text "module"), ("name", .text "demo"), ("items", .array [.int 1])]

/-- A function under a name, or under none, as an extractor describes it that notes where it stands. -/
def demoFunction (name : Json) : Fields :=
  [("kind", .text "function"), ("span", .array [.int 3, .int 9]), ("name", name)]

def demoTree (extras module function : Fields) : Json :=
  .object (extras ++ [("index", .object [("0", .object module), ("1", .object function)])])

/-- The function with a text in the place of where it stands. -/
def notedFunction (name : Json) : Fields :=
  Json.put ((demoFunction name).filter (·.1 ≠ "span")) "docs" (.text "Does nothing.")

/-- The same tree with notes of its own, on the module and on the function. -/
def notedTree (name : Json) : Json :=
  demoTree [("generator", .text "extractor")] (Json.put demoModule "docs" (.text "A demo."))
    (notedFunction name)

private theorem sameDocument_noted (name : Json) :
    SameDocument (demoTree [] demoModule (demoFunction name)) (notedTree name) := by
  have module : SameEntry (.object demoModule)
      (.object (Json.put demoModule "docs" (.text "A demo."))) := .record (.put (by decide) _)
  have keys : declaredKeys (demoFunction name) = ["kind", "deprecated", "name", "params", "output",
    "generics", "header", "has_body"] := rfl
  have function : SameEntry (.object (demoFunction name)) (.object (notedFunction name)) := by
    refine .record (.trans (.erase ?_) (.put ?_ _)) <;> rw [keys] <;> decide
  refine .document ?_ (.some (.entries (.cons ⟨rfl, module⟩ (.cons ⟨rfl, function⟩ .nil))))
  simp [SameUnder, List.lookup_cons]

/-- Other notes on a tree that is accepted, and on one that is refused for the name of its function. -/
theorem undeclared_keys_never_matter_notes :
    notedTree (.text "f") ≠ demoTree [] demoModule (demoFunction (.text "f")) ∧
    (∃ tree, ofJson? (notedTree (.text "f")) = .ok tree ∧
      ofJson? (demoTree [] demoModule (demoFunction (.text "f"))) = .ok tree) ∧
    ∃ faults, ofJson? (notedTree .null) = .error (.problem (.schema faults)) ∧
      ofJson? (demoTree [] demoModule (demoFunction .null)) = .error (.problem (.schema faults)) := by
  have accepted : ∃ tree, ofJson? (demoTree [] demoModule (demoFunction (.text "f"))) = .ok tree :=
    ⟨_, rfl⟩
  have refused : ∃ faults, ofJson? (demoTree [] demoModule (demoFunction .null)) =
      .error (.problem (.schema faults)) := ⟨_, rfl⟩
  obtain ⟨tree, accepted⟩ := accepted
  obtain ⟨faults, refused⟩ := refused
  obtain ⟨alike, _⟩ := undeclared_keys_never_matter (sameDocument_noted (.text "f"))
  obtain ⟨alike', _⟩ := undeclared_keys_never_matter (sameDocument_noted .null)
  refine ⟨?_, ⟨tree, alike.trans accepted, accepted⟩, faults, alike'.trans refused, refused⟩
  simp [notedTree, demoTree]

end Tree

end ApiDelta
