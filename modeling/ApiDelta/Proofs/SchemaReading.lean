import ApiDelta.Callable
import ApiDelta.Proofs.KeyOrder

/-!
Reading back what was written. A check reads a value as `x` if it accepts the value, and each value that
differs from it in the order of keys alone, and makes `x` of it. Records, lists and choices are read
as their parts are: a record as soon as each of its keys is, under whatever other key it stands.
-/
namespace ApiDelta.Schema

open Json (Same)

variable {α β : Type}

/-! ## Keys and values -/

/-- Where no key stands twice, a key leads to each value that stands under it. -/
theorem lookup_eq_some_iff_mem {entries : List (α × β)} [BEq α] [LawfulBEq α]
    (distinct : (entries.map Prod.fst).Nodup) {key : α} {value : β} :
    entries.lookup key = some value ↔ (key, value) ∈ entries := by
  constructor
  · intro found
    obtain ⟨before, after, rfl, _⟩ := List.lookup_eq_some_iff.mp found
    exact List.mem_append_right before List.mem_cons_self
  · intro member
    obtain ⟨before, after, rfl⟩ := List.append_of_mem member
    refine List.lookup_eq_some_iff.mpr ⟨before, after, rfl, fun entry earlier => ?_⟩
    rw [List.map_append, List.map_cons] at distinct
    have apart := (List.nodup_append.mp distinct).2.2
    exact bne_iff_ne.mpr
      (apart entry.1 (List.mem_map_of_mem earlier) key List.mem_cons_self).symm

/-- The keys after one of them is set: a new key goes last, a known one keeps its place. -/
theorem keys_set [DecidableEq α] (entries : List (α × β)) (key : α) (value : β) :
    (if entries.any (·.1 == key) then
      entries.map fun entry => if entry.1 == key then (key, value) else entry
      else entries ++ [(key, value)]).map Prod.fst =
      if key ∈ entries.map Prod.fst then entries.map Prod.fst else entries.map Prod.fst ++ [key] := by
  have present : entries.any (·.1 == key) = true ↔ key ∈ entries.map Prod.fst := by
    simp
  by_cases held : key ∈ entries.map Prod.fst
  · rw [if_pos (present.mpr held), if_pos held, List.map_map]
    refine List.map_congr_left fun entry _ => ?_
    by_cases same : entry.1 = key <;> simp [same]
  · rw [if_neg (mt present.mp held), if_neg held, List.map_append, List.map_singleton]

/-- Two objects have the same keys, and under each of them the same value up to the order of keys. -/
structure Alike (fields fields' : Fields) : Prop where
  keys : (fields.map Prod.fst).Perm (fields'.map Prod.fst)
  found : ∀ key value, fields.lookup key = some value →
    ∃ value', fields'.lookup key = some value' ∧ Same value value'

theorem Alike.refl (fields : Fields) : Alike fields fields :=
  ⟨List.Perm.refl _, fun _ value found => ⟨value, found, .refl value⟩⟩

theorem Alike.of_same {fields : Fields} (distinct : (fields.map Prod.fst).Nodup) {value : Json}
    (same : Same (.object fields) value) : ∃ fields', value = .object fields' ∧ Alike fields fields' := by
  cases same with
  | refl =>
    exact ⟨fields, rfl, .refl fields⟩
  | @object _ fields' keys each =>
    refine ⟨fields', rfl, keys, fun key value found => ?_⟩
    have member := (lookup_eq_some_iff_mem distinct).mp found
    obtain ⟨value', member'⟩ := Json.exists_field_of_perm keys member
    exact ⟨value', (lookup_eq_some_iff_mem (keys.nodup_iff.mp distinct)).mpr member',
      each key value value' member member'⟩

/-! ## Sound answers -/

section Sound

variable {f : α → β} {checked : Checked α} {y : β}

theorem map_eq_sound_iff : f <$> checked = .sound y ↔ ∃ x, checked = .sound x ∧ f x = y := by
  cases checked <;> simp [Functor.map, Checked.map]

theorem seq_eq_sound_iff {function : Checked (α → β)} :
    function <*> checked = .sound y ↔ ∃ g x, function = .sound g ∧ checked = .sound x ∧ g x = y := by
  cases function <;> cases checked <;> simp [Seq.seq, Checked.apply]

theorem under_eq_sound_iff {step : Step} {x : α} :
    checked.under step = .sound x ↔ checked = .sound x := by
  cases checked <;> simp [Checked.under]

theorem required_eq_sound_iff {fields : Fields} {key : String} {check : Json → Checked α} {x : α} :
    required fields key check = .sound x ↔
      ∃ value, fields.lookup key = some value ∧ check value = .sound x := by
  unfold required
  cases fields.lookup key with
  | none => simp
  | some value => simp [under_eq_sound_iff]

end Sound

/-! ## Reading -/

/-- The check makes `x` of the value, whatever the order of its keys. -/
def Reads (check : Json → Checked α) (value : Json) (x : α) : Prop :=
  ∀ value', Same value value' → check value' = .sound x

theorem Reads.self {check : Json → Checked α} {value : Json} {x : α} (reads : Reads check value x) :
    check value = .sound x :=
  reads value (.refl value)

/-! ## Scalars -/

theorem reads_text (value : String) : Reads text (.text value) value :=
  fun | _, .refl _ => rfl

theorem reads_boolean (value : Bool) : Reads boolean (.bool value) value :=
  fun | _, .refl _ => rfl

theorem reads_integer (value : Int) : Reads integer (.int value) value :=
  fun | _, .refl _ => rfl

theorem reads_textOrNull (value : Option String) : Reads textOrNull (Json.ofTextOption value) value := by
  cases value with
  | none => exact fun | _, .refl _ => rfl
  | some value => exact fun | _, .refl _ => rfl

/-- A word of a table is read as the value beside it. -/
theorem reads_literal {table : List (String × α)} {word : String} {x : α}
    (formed : Text.isWellFormed word) (listed : table.lookup word = some x) :
    Reads (literal table) (.text word) x := by
  intro value' same
  cases same
  simp only [literal, ofCharacters, formed, listed, if_true]

theorem reads_member {table : List (String × α)} {word : String} {x : α}
    (formed : Text.isWellFormed word) (listed : table.lookup word = some x) :
    Reads (member table) (.text word) x := by
  intro value' same
  cases same
  simp only [member, ofCharacters, formed, listed, if_true]

/-! ## Lists -/

theorem same_array {items : List Json} {value : Json} (same : Same (.array items) value) :
    ∃ items', value = .array items' ∧ items'.length = items.length ∧
      ∀ (i : Nat) item item', items[i]? = some item → items'[i]? = some item' → Same item item' := by
  cases same with
  | refl =>
    refine ⟨items, rfl, rfl, fun i item item' here there => ?_⟩
    obtain rfl := Option.some.inj (here.symm.trans there)
    exact .refl item
  | @array _ items' lengths each => exact ⟨items', rfl, lengths.symm, each⟩

/-- A list of values that are read one by one is read in order, and no position faults. -/
theorem all_eq_sound {step : Nat → Step} {check : Json → Checked α} {xs : List α} {items : List Json}
    (lengths : items.length = xs.length)
    (each : ∀ (i : Nat) x item, xs[i]? = some x → items[i]? = some item → check item = .sound x)
    (start : Nat) : Checked.all step check start items = .sound xs := by
  induction items generalizing xs start with
  | nil =>
    obtain rfl := List.length_eq_zero_iff.mp lengths.symm
    rfl
  | cons item rest ih =>
    cases xs with
    | nil => cases lengths
    | cons x xs =>
      have first : check item = .sound x := each 0 x item rfl rfl
      have others := ih (Nat.succ.inj lengths)
        (fun i x item here there => each (i + 1) x item here there) (start + 1)
      simp only [Checked.all, first, others, Checked.under, Checked.map, Checked.apply]

section Sequences

variable {check : Json → Checked α} {write : α → Json} {xs : List α}

theorem all_of_same (reads : ∀ x ∈ xs, Reads check (write x) x) {value : Json}
    (same : Same (.array (xs.map write)) value) :
    ∃ items, value = .array items ∧ Checked.all .index check 0 items = .sound xs := by
  obtain ⟨items, rfl, lengths, each⟩ := same_array same
  refine ⟨items, rfl, all_eq_sound (lengths.trans (List.length_map _)) (fun i x item here there => ?_) 0⟩
  have written : (xs.map write)[i]? = some (write x) := by rw [List.getElem?_map, here, Option.map_some]
  exact reads x (List.mem_of_getElem? here) item (each i _ item written there)

theorem reads_listOf (reads : ∀ x ∈ xs, Reads check (write x) x) :
    Reads (listOf check) (.array (xs.map write)) xs := by
  intro value same
  obtain ⟨items, rfl, sound⟩ := all_of_same reads same
  exact sound

theorem reads_tupleOf (reads : ∀ x ∈ xs, Reads check (write x) x) :
    Reads (tupleOf check) (.array (xs.map write)) xs := by
  intro value same
  obtain ⟨items, rfl, sound⟩ := all_of_same reads same
  exact sound

end Sequences

theorem reads_texts (texts : List String) : Reads (listOf text) (Json.ofTexts texts) texts :=
  reads_listOf fun text _ => reads_text text

theorem reads_tuple_texts (texts : List String) : Reads (tupleOf text) (Json.ofTexts texts) texts :=
  reads_tupleOf fun text _ => reads_text text

/-! ## Records -/

section Records

variable {fields fields' : Fields} {key : String} {value : Json} {x : α}

theorem required_of_alike {check : Json → Checked α} (alike : Alike fields fields')
    (held : fields.lookup key = some value) (reads : Reads check value x) :
    required fields' key check = .sound x := by
  obtain ⟨value', found, same⟩ := alike.found key value held
  simp only [required, found, reads value' same, Checked.under]

theorem optional_of_alike {check : Json → Checked α} {default : α} (alike : Alike fields fields')
    (held : fields.lookup key = some value) (reads : Reads check value x) :
    optional fields' key default check = .sound x := by
  obtain ⟨value', found, same⟩ := alike.found key value held
  simp only [optional, found, reads value' same, Checked.under]

/-- A record finds nothing to object to in an object with none but its own keys. -/
theorem closed_of_alike {known : List String} {check : Fields → Checked α}
    (formed : ∀ key ∈ known, Text.isWellFormed key) (alike : Alike fields fields')
    (within : ∀ key ∈ fields.map Prod.fst, key ∈ known) (read : check fields' = .sound x) :
    closed known check fields' = .sound x := by
  have known' : ∀ field ∈ fields', field.1 ∈ known := fun field member =>
    within field.1 (alike.keys.mem_iff.mpr (List.mem_map_of_mem member))
  have proper : fields'.all (fun field => Text.isWellFormed field.1) = true :=
    List.all_eq_true.mpr fun field member => formed field.1 (known' field member)
  have extras : extraFaults known fields' = [] := by
    rw [extraFaults, List.map_eq_nil_iff, List.filter_eq_nil_iff]
    intro field member
    simpa using known' field member
  simp only [closed, proper, if_true, read, noExtras, extras, Checked.map, Checked.apply]

theorem reads_record {name : String} {known : List String} {check : Fields → Checked α}
    (named : fields.map Prod.fst = known) (distinct : known.Nodup)
    (formed : ∀ key ∈ known, Text.isWellFormed key)
    (read : ∀ fields', Alike fields fields' → check fields' = .sound x) :
    Reads (record name (closed known check)) (.object fields) x := by
  intro value same
  obtain ⟨fields', rfl, alike⟩ := Alike.of_same (named.symm ▸ distinct) same
  exact closed_of_alike formed alike (fun key member => named ▸ member) (read fields' alike)

/-- A choice reads an object as the alternative that its tag names does. -/
theorem reads_choice {discriminator word : String} {alternatives : List (String × (Fields → Checked α))}
    {check : Fields → Checked α} (distinct : (fields.map Prod.fst).Nodup)
    (tagged : fields.lookup discriminator = some (.text word))
    (offered : alternatives.lookup word = some check)
    (read : ∀ fields', Alike fields fields' → check fields' = .sound x) :
    Reads (choice discriminator alternatives) (.object fields) x := by
  intro value same
  obtain ⟨fields', rfl, alike⟩ := Alike.of_same distinct same
  obtain ⟨tag, found, same⟩ := alike.found discriminator _ tagged
  cases same
  simp only [choice, found, offered, read fields' alike, Checked.under]

end Records

end ApiDelta.Schema

namespace ApiDelta

open Schema

/-! ## Parts of callables -/

theorem Parameter.reads (name : String) (p : Parameter) : Reads (Parameter.check name) p.toJson p := by
  refine reads_record rfl (by decide) (by decide) fun fields alike => ?_
  rw [required_of_alike alike rfl (reads_text p.name), required_of_alike alike rfl (reads_text p.type)]
  rfl

theorem Header.reads (name : String) (h : Header) : Reads (Header.check name) h.toJson h := by
  refine reads_record rfl (by decide) (by decide) fun fields alike => ?_
  rw [optional_of_alike alike rfl (reads_boolean h.isConst),
    optional_of_alike alike rfl (reads_boolean h.isAsync),
    optional_of_alike alike rfl (reads_boolean h.isUnsafe),
    optional_of_alike alike rfl (reads_text h.abi)]
  rfl

end ApiDelta
