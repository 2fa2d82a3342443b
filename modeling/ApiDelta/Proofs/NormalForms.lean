import ApiDelta.Proofs.Checking
import ApiDelta.Proofs.DecimalNumerals
import ApiDelta.Proofs.SchemaReading

/-!
A tree that has been read has a normal form: its entries under decimal keys, each with every key of its
record and no other. Reading is lenient about how a tree is written, but only once: the normal form is
read as the very tree it was made from, and nothing can tell the two sources apart.
-/
namespace ApiDelta.Tree

open Schema

/-! ## Declarations -/

/-- What an entry is written with: its kind, its flag, and the keys of its own record. -/
def marked (kind deprecated : Json) (own : Fields) : Fields :=
  ("kind", kind) :: ("deprecated", deprecated) :: own

theorem reads_numbers (numbers : List Int) : Reads (listOf integer) (ofNumbers numbers) numbers :=
  reads_listOf fun number _ => reads_integer number

section Records

variable {kind deprecated : Json} {fields : Fields}

theorem ModuleDecl.of_alike {d : ModuleDecl} (alike : Alike (marked kind deprecated d.toFields) fields) :
    ModuleDecl.check fields = .sound d := by
  unfold ModuleDecl.check Tree.name numbers
  rw [required_of_alike alike rfl (reads_text d.name),
    optional_of_alike alike rfl (reads_numbers d.items)]
  rfl

theorem FunctionDecl.of_alike {d : FunctionDecl}
    (alike : Alike (marked kind deprecated d.toFields) fields) : FunctionDecl.check fields = .sound d := by
  unfold FunctionDecl.check FunctionDecl.checkCallable Tree.name textOption texts flag
  rw [required_of_alike alike rfl (reads_text d.name),
    optional_of_alike alike rfl (reads_listOf fun p _ => p.reads "RawParam"),
    optional_of_alike alike rfl (reads_textOrNull d.callable.output),
    optional_of_alike alike rfl (reads_texts d.callable.generics),
    optional_of_alike alike rfl (d.callable.header.reads "RawHeader"),
    optional_of_alike alike rfl (reads_boolean d.hasBody)]
  rfl

theorem StructDecl.of_alike {d : StructDecl} (alike : Alike (marked kind deprecated d.toFields) fields) :
    StructDecl.check fields = .sound d := by
  have shape : Reads (literal StructShape.table) (.text d.shape.label) d.shape := by
    cases d.shape <;> exact reads_literal (by decide) rfl
  unfold StructDecl.check Tree.name texts numbers flag
  rw [required_of_alike alike rfl (reads_text d.name), optional_of_alike alike rfl shape,
    optional_of_alike alike rfl (reads_texts d.generics),
    optional_of_alike alike rfl (reads_numbers d.fields),
    optional_of_alike alike rfl (reads_boolean d.fieldsStripped),
    optional_of_alike alike rfl (reads_numbers d.impls)]
  rfl

theorem UnionDecl.of_alike {d : UnionDecl} (alike : Alike (marked kind deprecated d.toFields) fields) :
    UnionDecl.check fields = .sound d := by
  unfold UnionDecl.check Tree.name texts numbers flag
  rw [required_of_alike alike rfl (reads_text d.name),
    optional_of_alike alike rfl (reads_texts d.generics),
    optional_of_alike alike rfl (reads_numbers d.fields),
    optional_of_alike alike rfl (reads_boolean d.fieldsStripped),
    optional_of_alike alike rfl (reads_numbers d.impls)]
  rfl

theorem EnumDecl.of_alike {d : EnumDecl} (alike : Alike (marked kind deprecated d.toFields) fields) :
    EnumDecl.check fields = .sound d := by
  unfold EnumDecl.check Tree.name texts numbers flag
  rw [required_of_alike alike rfl (reads_text d.name),
    optional_of_alike alike rfl (reads_texts d.generics),
    optional_of_alike alike rfl (reads_numbers d.variants),
    optional_of_alike alike rfl (reads_boolean d.variantsStripped),
    optional_of_alike alike rfl (reads_numbers d.impls)]
  rfl

theorem VariantDecl.of_alike {d : VariantDecl} (alike : Alike (marked kind deprecated d.toFields) fields) :
    VariantDecl.check fields = .sound d := by
  have shape : Reads (literal VariantShape.table) (.text d.shape.label) d.shape := by
    cases d.shape <;> exact reads_literal (by decide) rfl
  unfold VariantDecl.check Tree.name numbers flag
  rw [required_of_alike alike rfl (reads_text d.name), optional_of_alike alike rfl shape,
    optional_of_alike alike rfl (reads_numbers d.fields),
    optional_of_alike alike rfl (reads_boolean d.fieldsStripped)]
  rfl

theorem FieldDecl.of_alike {d : FieldDecl} (alike : Alike (marked kind deprecated d.toFields) fields) :
    FieldDecl.check fields = .sound d := by
  unfold FieldDecl.check Tree.name
  rw [required_of_alike alike rfl (reads_text d.name), required_of_alike alike rfl (reads_text d.type)]
  rfl

theorem TypedefDecl.of_alike {d : TypedefDecl} (alike : Alike (marked kind deprecated d.toFields) fields) :
    TypedefDecl.check fields = .sound d := by
  unfold TypedefDecl.check Tree.name texts
  rw [required_of_alike alike rfl (reads_text d.name), required_of_alike alike rfl (reads_text d.type),
    optional_of_alike alike rfl (reads_texts d.generics)]
  rfl

theorem TraitDecl.of_alike {d : TraitDecl} (alike : Alike (marked kind deprecated d.toFields) fields) :
    TraitDecl.check fields = .sound d := by
  unfold TraitDecl.check Tree.name texts numbers flag
  rw [required_of_alike alike rfl (reads_text d.name),
    optional_of_alike alike rfl (reads_texts d.generics),
    optional_of_alike alike rfl (reads_texts d.bounds),
    optional_of_alike alike rfl (reads_numbers d.items),
    optional_of_alike alike rfl (reads_boolean d.isUnsafe),
    optional_of_alike alike rfl (reads_boolean d.isAuto)]
  rfl

/-- The type is written under `for`, so the other spelling of the key is not looked at. -/
theorem ImplDecl.of_alike {d : ImplDecl} (alike : Alike (marked kind deprecated d.toFields) fields) :
    ImplDecl.check fields = .sound d := by
  have forType : checkForType fields = .sound d.forType := by
    obtain ⟨value, found, _⟩ := alike.found "for" _ rfl
    rw [checkForType, found]
    exact required_of_alike alike rfl (reads_text d.forType)
  unfold ImplDecl.check textOption texts numbers flag
  rw [forType, optional_of_alike alike rfl (reads_textOrNull d.trait),
    optional_of_alike alike rfl (reads_texts d.generics),
    optional_of_alike alike rfl (reads_numbers d.items),
    optional_of_alike alike rfl (reads_boolean d.isUnsafe),
    optional_of_alike alike rfl (reads_boolean d.negative),
    optional_of_alike alike rfl (reads_boolean d.synthetic),
    optional_of_alike alike rfl (reads_boolean d.blanket)]
  rfl

theorem AssocTypeDecl.of_alike {d : AssocTypeDecl}
    (alike : Alike (marked kind deprecated d.toFields) fields) :
    AssocTypeDecl.check fields = .sound d := by
  unfold AssocTypeDecl.check Tree.name texts textOption
  rw [required_of_alike alike rfl (reads_text d.name),
    optional_of_alike alike rfl (reads_texts d.generics),
    optional_of_alike alike rfl (reads_texts d.bounds),
    optional_of_alike alike rfl (reads_textOrNull d.default)]
  rfl

theorem AssocConstDecl.of_alike {d : AssocConstDecl}
    (alike : Alike (marked kind deprecated d.toFields) fields) :
    AssocConstDecl.check fields = .sound d := by
  unfold AssocConstDecl.check Tree.name textOption
  rw [required_of_alike alike rfl (reads_text d.name), required_of_alike alike rfl (reads_text d.type),
    optional_of_alike alike rfl (reads_textOrNull d.default)]
  rfl

theorem ConstantDecl.of_alike {d : ConstantDecl}
    (alike : Alike (marked kind deprecated d.toFields) fields) : ConstantDecl.check fields = .sound d := by
  unfold ConstantDecl.check Tree.name textOption
  rw [required_of_alike alike rfl (reads_text d.name), required_of_alike alike rfl (reads_text d.type),
    optional_of_alike alike rfl (reads_textOrNull d.value)]
  rfl

theorem StaticDecl.of_alike {d : StaticDecl} (alike : Alike (marked kind deprecated d.toFields) fields) :
    StaticDecl.check fields = .sound d := by
  unfold StaticDecl.check Tree.name flag textOption
  rw [required_of_alike alike rfl (reads_text d.name), required_of_alike alike rfl (reads_text d.type),
    optional_of_alike alike rfl (reads_boolean d.mutable),
    optional_of_alike alike rfl (reads_textOrNull d.value)]
  rfl

theorem ReexportDecl.of_alike {d : ReexportDecl}
    (alike : Alike (marked kind deprecated d.toFields) fields) : ReexportDecl.check fields = .sound d := by
  have target : ∃ value, (marked kind deprecated d.toFields).lookup "target" = some value ∧
      Reads integerOrNull value d.target := by
    refine ⟨_, rfl, ?_⟩
    cases d.target with
    | none => exact fun | _, .refl _ => rfl
    | some id => exact fun | _, .refl _ => rfl
  obtain ⟨value, held, reads⟩ := target
  unfold ReexportDecl.check Tree.name flag
  rw [required_of_alike alike rfl (reads_text d.name),
    required_of_alike alike rfl (reads_text d.source), optional_of_alike alike held reads,
    optional_of_alike alike rfl (reads_boolean d.glob)]
  rfl

theorem InertDecl.of_alike {d : InertDecl} (alike : Alike (marked kind deprecated d.toFields) fields) :
    InertDecl.check d.kind fields = .sound d := by
  rw [InertDecl.check, textOption, optional_of_alike alike rfl (reads_textOrNull d.name)]
  rfl

end Records

/-- The alternative that the kind of an entry names makes its declaration of what it is written with. -/
theorem Declaration.exists_check (deprecated : Json) (declaration : Declaration) :
    ∃ check : Fields → Checked Declaration,
      (Declaration.checks.map fun (kind, declaration) => (kind, Entry.checkWith declaration)).lookup
          declaration.kind = some (Entry.checkWith check) ∧
        ∀ fields, Alike (marked (.text declaration.kind) deprecated declaration.toFields) fields →
          check fields = .sound declaration := by
  cases declaration with
  | module d =>
    exact ⟨_, rfl, fun fields alike => congrArg (Checked.map module) (ModuleDecl.of_alike alike)⟩
  | function d =>
    exact ⟨_, rfl, fun fields alike => congrArg (Checked.map function) (FunctionDecl.of_alike alike)⟩
  | method d =>
    exact ⟨_, rfl, fun fields alike => congrArg (Checked.map method) (FunctionDecl.of_alike alike)⟩
  | struct d =>
    exact ⟨_, rfl, fun fields alike => congrArg (Checked.map struct) (StructDecl.of_alike alike)⟩
  | union d =>
    exact ⟨_, rfl, fun fields alike => congrArg (Checked.map union) (UnionDecl.of_alike alike)⟩
  | enum d =>
    exact ⟨_, rfl, fun fields alike => congrArg (Checked.map enum) (EnumDecl.of_alike alike)⟩
  | variant d =>
    exact ⟨_, rfl, fun fields alike => congrArg (Checked.map variant) (VariantDecl.of_alike alike)⟩
  | structField d =>
    exact ⟨_, rfl, fun fields alike => congrArg (Checked.map structField) (FieldDecl.of_alike alike)⟩
  | typedef d =>
    exact ⟨_, rfl, fun fields alike => congrArg (Checked.map typedef) (TypedefDecl.of_alike alike)⟩
  | trait d =>
    exact ⟨_, rfl, fun fields alike => congrArg (Checked.map trait) (TraitDecl.of_alike alike)⟩
  | impl d =>
    exact ⟨_, rfl, fun fields alike => congrArg (Checked.map impl) (ImplDecl.of_alike alike)⟩
  | assocType d =>
    exact ⟨_, rfl, fun fields alike => congrArg (Checked.map assocType) (AssocTypeDecl.of_alike alike)⟩
  | assocConst d =>
    exact ⟨_, rfl, fun fields alike => congrArg (Checked.map assocConst) (AssocConstDecl.of_alike alike)⟩
  | constant d =>
    exact ⟨_, rfl, fun fields alike => congrArg (Checked.map constant) (ConstantDecl.of_alike alike)⟩
  | static d =>
    exact ⟨_, rfl, fun fields alike => congrArg (Checked.map static) (StaticDecl.of_alike alike)⟩
  | reexport d =>
    exact ⟨_, rfl, fun fields alike => congrArg (Checked.map reexport) (ReexportDecl.of_alike alike)⟩
  | inert d =>
    obtain ⟨kind, name⟩ := d
    cases kind <;>
      exact ⟨_, rfl, fun fields alike =>
        congrArg (Checked.map inert) (InertDecl.of_alike (d := ⟨_, name⟩) alike)⟩

/-! ## Entries -/

theorem Entry.reads (entry : Entry) : Reads Entry.check entry.toJson entry := by
  obtain ⟨deprecated, declaration⟩ := entry
  obtain ⟨check, offered, read⟩ := declaration.exists_check (.bool deprecated)
  have distinct : ((marked (.text declaration.kind) (.bool deprecated)
      declaration.toFields).map Prod.fst).Nodup := by
    cases declaration <;> exact of_decide_eq_true rfl
  refine reads_choice distinct rfl offered fun fields alike => ?_
  rw [Entry.checkWith, flag, optional_of_alike alike rfl (reads_boolean deprecated), read fields alike]
  rfl

theorem Declaration.kind_mem_kinds (declaration : Declaration) : declaration.kind ∈ kinds := by
  obtain ⟨check, offered, _⟩ := declaration.exists_check (.bool false)
  obtain ⟨before, after, listed, _⟩ := List.lookup_eq_some_iff.mp offered
  have named : declaration.kind ∈
      (checks.map fun (kind, declaration) => (kind, Entry.checkWith declaration)).map Prod.fst := by
    rw [listed, List.map_append]
    exact List.mem_append_right _ List.mem_cons_self
  rw [← map_fst_checks]
  rwa [List.map_map] at named

/-! ## Keys -/

/-- A number whose decimal notation is short enough to be read. -/
def IsShort (id : Int) : Prop :=
  (Numeral.decimal id).length ≤ Numeral.longest

theorem isDecimal_of_isDigit {c : Char} (plain : Numeral.IsDecimalChar c) (digit : Text.isDigit c) :
    Text.isDecimal c := by
  rcases plain with rfl | ascii
  · revert digit
    decide
  · exact Text.isDecimal_of_isAsciiDigit ascii

/-- Decimal notation can be read as a key: what is a digit in it is a decimal one. -/
theorem not_unreadableKey_toString (id : Int) : ¬UnreadableKey (toString id) := by
  rintro ⟨_, digits, c, member, other⟩
  have plain : Numeral.IsDecimalChar c :=
    Numeral.isDecimalChar_of_mem (Numeral.toList_toString id ▸ member)
  exact other (isDecimal_of_isDigit plain (digits c member))

theorem isWellFormed_toString (id : Int) : Text.isWellFormed (toString id) := by
  refine Text.isWellFormed_of_forall_ne fun c member => ?_
  rw [Numeral.toList_toString] at member
  exact (Numeral.isDecimalChar_of_mem member).ne (by decide)

theorem checkKey_eq_sound_iff {key : String} {id : Int} :
    checkKey key = .sound id ↔ Text.isWellFormed key ∧ Numeral.read key.toList = .ok id := by
  rw [checkKey, under_eq_sound_iff, under_eq_sound_iff, integer, integerOfText, ofCharacters]
  by_cases formed : Text.isWellFormed key
  · rw [if_pos formed]
    cases Numeral.read key.toList <;> simp [formed, Checked.fault]
  · simp [formed, Checked.fault]

theorem checkKey_toString {id : Int} (short : IsShort id) : checkKey (toString id) = .sound id :=
  checkKey_eq_sound_iff.mpr ⟨isWellFormed_toString id,
    (Numeral.toList_toString id).symm ▸ Numeral.read_decimal short⟩

theorem isShort_of_checkKey {key : String} {id : Int} (read : checkKey key = .sound id) : IsShort id :=
  Numeral.length_decimal_le (checkKey_eq_sound_iff.mp read).2

/-! ## Indexes -/

/-- What reading makes of an index: no number twice, and each of them short. -/
structure Writable (index : Index) : Prop where
  distinct : (index.map Prod.fst).Nodup
  short : ∀ pair ∈ index, IsShort pair.1

/-- An index as JSON. -/
def written (index : Index) : Fields :=
  index.map fun (id, entry) => (toString id, entry.toJson)

theorem ids_putEntry (index : Index) (id : Int) (entry : Entry) :
    (putEntry index id entry).map Prod.fst =
      if id ∈ index.map Prod.fst then index.map Prod.fst else index.map Prod.fst ++ [id] :=
  keys_set index id entry

theorem Writable.putEntry {index : Index} (writable : Writable index) {id : Int} (short : IsShort id)
    (entry : Entry) : Writable (putEntry index id entry) := by
  have ids := ids_putEntry index id entry
  split at ids
  · refine ⟨ids ▸ writable.distinct, fun pair member => ?_⟩
    have named : pair.1 ∈ index.map Prod.fst := ids ▸ List.mem_map_of_mem member
    obtain ⟨other, among, same⟩ := List.mem_map.mp named
    exact same ▸ writable.short other among
  · rename_i fresh
    refine ⟨?_, fun pair member => ?_⟩
    · rw [ids]
      refine List.nodup_append.mpr ⟨writable.distinct, List.nodup_singleton id, ?_⟩
      rintro other among _ (_ | ⟨_, ⟨⟩⟩) rfl
      exact fresh among
    · have named : pair.1 ∈ index.map Prod.fst ++ [id] := ids ▸ List.mem_map_of_mem member
      rcases List.mem_append.mp named with earlier | new
      · obtain ⟨other, among, same⟩ := List.mem_map.mp earlier
        exact same ▸ writable.short other among
      · exact List.mem_singleton.mp new ▸ short

theorem Writable.foldl_putEntry {index : Index} (writable : Writable index) {pairs : List (Int × Entry)}
    (short : ∀ pair ∈ pairs, IsShort pair.1) :
    Writable (pairs.foldl (fun index pair => Tree.putEntry index pair.1 pair.2) index) := by
  induction pairs generalizing index with
  | nil => exact writable
  | cons pair rest ih =>
    obtain ⟨first, others⟩ := List.forall_mem_cons.mp short
    exact ih (writable.putEntry first pair.2) others

/-- Pairs with fresh numbers are put one after the other. -/
theorem foldl_putEntry_of_nodup {index : Index} {pairs : List (Int × Entry)}
    (distinct : ((index ++ pairs).map Prod.fst).Nodup) :
    pairs.foldl (fun index pair => putEntry index pair.1 pair.2) index = index ++ pairs := by
  induction pairs generalizing index with
  | nil => exact (List.append_nil index).symm
  | cons pair rest ih =>
    have fresh : index.any (·.1 == pair.1) = false := by
      rw [List.map_append, List.map_cons] at distinct
      have apart := (List.nodup_append.mp distinct).2.2
      exact List.any_eq_false.mpr fun earlier among same =>
        apart _ (List.mem_map_of_mem among) _ List.mem_cons_self (beq_iff_eq.mp same)
    rw [List.foldl_cons, putEntry, fresh, if_neg Bool.false_ne_true, ih, List.append_assoc,
      List.singleton_append]
    rwa [List.append_assoc]

theorem isShort_of_checkPairs {entries : List (String × Json)} {pairs : List (Int × Entry)}
    (read : checkPairs entries = .sound pairs) : ∀ pair ∈ pairs, IsShort pair.1 := by
  induction entries generalizing pairs with
  | nil =>
    cases read
    exact List.forall_mem_nil _
  | cons field rest ih =>
    obtain ⟨key, value⟩ := field
    simp only [checkPairs, seq_eq_sound_iff, map_eq_sound_iff] at read
    obtain ⟨_, others, ⟨_, entry, ⟨id, keyed, rfl⟩, _, rfl⟩, tail, rfl⟩ := read
    exact List.forall_mem_cons.mpr ⟨isShort_of_checkKey keyed, ih tail⟩

theorem checkPairs_written {index : Index} (short : ∀ pair ∈ index, IsShort pair.1) :
    checkPairs (written index) = .sound index := by
  induction index with
  | nil => rfl
  | cons pair rest ih =>
    obtain ⟨first, others⟩ := List.forall_mem_cons.mp short
    rw [written, List.map_cons, checkPairs, checkKey_toString first, pair.2.reads.self, ← written,
      ih others]
    rfl

theorem writable_of_checkIndex {value : Json} {index : Index} (read : checkIndex value = .sound index) :
    Writable index := by
  cases value with
  | object entries =>
    obtain ⟨pairs, sound, rfl⟩ := map_eq_sound_iff.mp read
    have empty : Writable [] := ⟨List.nodup_nil, List.forall_mem_nil _⟩
    exact empty.foldl_putEntry (isShort_of_checkPairs sound)
  | _ => cases read

theorem checkIndex_written {index : Index} (writable : Writable index) :
    checkIndex (.object (written index)) = .sound index := by
  have fresh : ((([] : Index) ++ index).map Prod.fst).Nodup := writable.distinct
  exact map_eq_sound_iff.mpr
    ⟨index, checkPairs_written writable.short, foldl_putEntry_of_nodup fresh⟩

/-! ## Trees -/

/-- The kinds of a written index are known, and its keys can be read. -/
theorem scanEntries_written (index : Index) : scanEntries (written index) = .ok () := by
  refine scanEntries_eq_ok_iff.mpr fun entry member => ?_
  obtain ⟨pair, _, rfl⟩ := List.mem_map.mp member
  rintro _ ⟨⟩
  exact ⟨not_unreadableKey_toString pair.1, _, rfl, pair.2.declaration.kind_mem_kinds⟩

/-- What the schema makes of a tree that is written. -/
def document (tree : Tree) : Document where
  formatVersion := tree.formatVersion
  crateVersion := tree.crateVersion
  root := rootId
  index := tree.index

theorem Document.rooted_eq_ok_iff {d : Document} {tree : Tree} :
    d.rooted = .ok tree ↔ d = tree.document := by
  constructor
  · intro rooted
    unfold Document.rooted at rooted
    split at rooted
    · cases rooted
    · rename_i root
      split at rooted
      · cases rooted
      · split at rooted
        · cases rooted
          exact congrArg (fun root => Document.mk d.formatVersion d.crateVersion root d.index)
            (not_not.mp root)
        · cases rooted
  · rintro rfl
    obtain ⟨formatVersion, crateVersion, index, root, held⟩ := tree
    unfold Document.rooted document
    rw [if_neg (not_not.mpr rfl)]
    split
    · rename_i absent
      rw [absent] at held
      cases held
    · rename_i entry found
      rw [found, Option.map_some, Option.some.injEq] at held
      split
      · rename_i root' shape
        obtain rfl := Declaration.module.inj (shape.symm.trans held)
        rfl
      · rename_i other
        exact absurd held (other root)

/-- A value holds a tree if its kinds are known and the schema makes of it what the tree is written as. -/
theorem ofJson?_eq_ok_iff {value : Json} {tree : Tree} :
    ofJson? value = .ok tree ↔ ∃ fields, value = .object fields ∧ scan fields = .ok () ∧
      Document.check fields = .sound tree.document := by
  cases value with
  | object fields =>
    simp only [ofJson?, Json.object.injEq, exists_eq_left']
    cases scan fields with
    | error refusal => simp
    | ok =>
      cases Document.check fields with
      | faulty faults => simp
      | sound d =>
        simp only [true_and, Schema.Checked.sound.injEq, ← Document.rooted_eq_ok_iff]
        cases d.rooted <;> simp
  | _ => simp [ofJson?]

theorem Document.writable_of_check {fields : Fields} {d : Document} (read : check fields = .sound d) :
    Writable d.index := by
  simp only [check, seq_eq_sound_iff, map_eq_sound_iff] at read
  obtain ⟨_, index, ⟨_, root, ⟨_, crateVersion, ⟨formatVersion, _, rfl⟩, _, rfl⟩, _, rfl⟩, indexed,
    rfl⟩ := read
  obtain ⟨value, _, sound⟩ := required_eq_sound_iff.mp indexed
  exact writable_of_checkIndex sound

/-- What a tree is written with. -/
def toFields (tree : Tree) : Fields :=
  [("format_version", .int tree.formatVersion), ("crate_version", Json.ofTextOption tree.crateVersion),
    ("root", .int rootId), ("index", .object (written tree.index))]

theorem Document.check_toFields {tree : Tree} (writable : Writable tree.index) :
    check tree.toFields = .sound tree.document := by
  have alike := Alike.refl tree.toFields
  rw [check, optional_of_alike alike rfl (reads_integer tree.formatVersion),
    optional_of_alike alike rfl (reads_textOrNull tree.crateVersion),
    optional_of_alike alike rfl (reads_integer rootId),
    required_eq_sound_iff.mpr ⟨_, rfl, checkIndex_written writable⟩]
  rfl

theorem Source.tree_value_congr {value value' : Json} (same : ofJson? value = ofJson? value')
    (files : Files.Store) : (Source.value value).tree files = (Source.value value').tree files := by
  simp only [Source.tree, Source.json, bind, Told.bind, pure, same]

theorem Source.snapshot_value_congr {value value' : Json} (same : ofJson? value = ofJson? value')
    (files : Files.Store) :
    (Source.value value).snapshot files = (Source.value value').snapshot files := by
  rw [Source.snapshot, Source.snapshot, Source.tree_value_congr same files]

/-- **Reading a tree makes a normal form of it.** The JSON value of a tree that has been read is read as
the same tree, so flattening either comes to the same: the same items or the same failure, and the same
notices on the way. -/
theorem normal_form_is_fixed {value : Json} {tree : Tree} (read : ofJson? value = .ok tree) :
    ofJson? tree.toJson = .ok tree ∧
      ∀ files, (Source.value tree.toJson).snapshot files = (Source.value value).snapshot files := by
  obtain ⟨fields, rfl, _, checked⟩ := ofJson?_eq_ok_iff.mp read
  have writable : Writable tree.index := Document.writable_of_check checked
  have fixed : ofJson? tree.toJson = .ok tree :=
    ofJson?_eq_ok_iff.mpr ⟨_, rfl, scanEntries_written tree.index, Document.check_toFields writable⟩
  exact ⟨fixed, Source.snapshot_value_congr (fixed.trans read.symm)⟩

/-- A tree with numbers as texts, booleans and binary numbers, a flag as a number, two spellings of one
key, and keys that no record knows. -/
def laxTree : Json :=
  .object [("root", .text "-0"), ("future", .null), ("index", .object [
    ("00", .object [("kind", .text "module"), ("name", .text "lib"), ("note", .int 5),
      ("items", .array [.text " 1 ", .bool true, .real (.finite false 2 0), .int 3])]),
    ("1", .object [("kind", .text "struct"), ("name", .text "Early")]),
    ("2", .object [("kind", .text "impl"), ("for_", .text "S"), ("deprecated", .int 1)]),
    ("+1", .object [("kind", .text "struct"), ("name", .text "Late")])])]

def laxTreeRead : Tree where
  index := [
    (0, { declaration := .module { name := "lib", items := [1, 1, 2, 3] } }),
    (1, { declaration := .struct { name := "Late" } }),
    (2, { deprecated := true, declaration := .impl { forType := "S" } })]
  root := { name := "lib", items := [1, 1, 2, 3] }
  rooted := rfl

/-- The lax tree is no normal form, but it has one. -/
theorem normal_form_is_fixed_lax :
    ofJson? laxTree = .ok laxTreeRead ∧ laxTreeRead.toJson ≠ laxTree ∧
      ofJson? laxTreeRead.toJson = .ok laxTreeRead ∧
      ∀ files, (Source.value laxTreeRead.toJson).snapshot files =
        (Source.value laxTree).snapshot files := by
  have read : ofJson? laxTree = .ok laxTreeRead := by rfl
  refine ⟨read, fun same => ?_, normal_form_is_fixed read⟩
  injection same with fields
  cases congrArg List.length fields

end ApiDelta.Tree
