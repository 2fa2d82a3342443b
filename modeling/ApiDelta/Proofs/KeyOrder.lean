import Mathlib.Data.List.Nodup
import Mathlib.Data.List.Perm.Subperm
import Mathlib.Data.String.Basic
import ApiDelta.Json.Canonical

/-!
JSON values up to the order of keys. Two values are the same if they differ in the order of keys alone,
at whatever depth. Each value has a form with its keys in order, `arranged`; the canonical text is a text
of that form, so values that are the same share it.
-/
namespace ApiDelta.Json

/-- The values whose texts are faithful: no binary numbers, no surrogates in texts and keys, and no key
twice in one object. -/
inductive Proper : Json → Prop where
  | null : Proper .null
  | bool (value : Bool) : Proper (.bool value)
  | int (value : Int) : Proper (.int value)
  | text {value : String} (formed : Text.isWellFormed value) : Proper (.text value)
  | array {items : List Json} (proper : ∀ item ∈ items, Proper item) : Proper (.array items)
  | object {fields : List (String × Json)} (distinct : (fields.map Prod.fst).Nodup)
      (formed : ∀ field ∈ fields, Text.isWellFormed field.1)
      (proper : ∀ field ∈ fields, Proper field.2) : Proper (.object fields)

/-- Equality up to the order of keys, at every level. -/
inductive Same : Json → Json → Prop where
  | refl (value : Json) : Same value value
  | array {items items' : List Json} (lengths : items.length = items'.length)
      (each : ∀ (i : Nat) item item', items[i]? = some item → items'[i]? = some item' →
        Same item item') : Same (.array items) (.array items')
  | object {fields fields' : List (String × Json)}
      (keys : (fields.map Prod.fst).Perm (fields'.map Prod.fst))
      (each : ∀ key value value', (key, value) ∈ fields → (key, value') ∈ fields' →
        Same value value') : Same (.object fields) (.object fields')

theorem exists_field_of_perm {α β : Type} {fields : List (String × α)} {fields' : List (String × β)}
    (keys : (fields.map Prod.fst).Perm (fields'.map Prod.fst)) {key : String} {value : α}
    (member : (key, value) ∈ fields) : ∃ value', (key, value') ∈ fields' := by
  have named : key ∈ fields'.map Prod.fst := keys.subset (List.mem_map_of_mem (f := Prod.fst) member)
  obtain ⟨field, found, rfl⟩ := List.mem_map.mp named
  exact ⟨field.2, found⟩

theorem Same.symm {a b : Json} (same : Same a b) : Same b a := by
  induction same with
  | refl value => exact .refl value
  | array lengths _ ih =>
    exact .array lengths.symm fun i item item' here there => ih i item' item there here
  | object keys _ ih =>
    exact .object keys.symm fun key value value' here there => ih key value' value there here

theorem Same.trans {a b c : Json} (first : Same a b) (second : Same b c) : Same a c := by
  induction first generalizing c with
  | refl => exact second
  | @array items items' lengths each ih =>
    cases second with
    | refl => exact .array lengths each
    | array lengths' each' =>
      refine .array (lengths.trans lengths') fun i item item'' here there => ?_
      have bound : i < items'.length := lengths ▸ (List.getElem?_eq_some_iff.mp here).1
      have middle : items'[i]? = some items'[i] := List.getElem?_eq_getElem bound
      exact ih i item _ here middle (each' i _ item'' middle there)
  | @object fields fields' keys each ih =>
    cases second with
    | refl => exact .object keys each
    | object keys' each' =>
      refine .object (keys.trans keys') fun key value value'' here there => ?_
      obtain ⟨value', middle⟩ := exists_field_of_perm keys here
      exact ih key value value' here middle (each' key value' value'' middle there)

/-! ## What a key leads to -/

theorem lookup_cons_eq (name : String) (value : Json) (fields : List (String × Json)) (key : String) :
    ((name, value) :: fields).lookup key = if key = name then some value else fields.lookup key := by
  by_cases same : key = name
  · rw [if_pos same, same, List.lookup_cons_self]
  · rw [if_neg same, List.lookup_cons, beq_false_of_ne same]

theorem lookup_isSome_iff {fields : List (String × Json)} {key : String} :
    (fields.lookup key).isSome ↔ key ∈ fields.map Prod.fst := by
  induction fields with
  | nil => simp
  | cons field rest ih =>
    obtain ⟨name, value⟩ := field
    rw [lookup_cons_eq, List.map_cons, List.mem_cons, ← ih]
    by_cases same : key = name <;> simp [same]

theorem lookup_put (fields : List (String × Json)) (key : String) (value : Json) (other : String) :
    (put fields key value).lookup other = if other = key then some value else fields.lookup other := by
  have replaced : ∀ fields : List (String × Json),
      (fields.map fun field => if field.1 == key then (key, value) else field).lookup other =
        (fields.lookup other).map fun old => if other = key then value else old := by
    intro fields
    induction fields with
    | nil => rfl
    | cons field rest ih =>
      obtain ⟨name, old⟩ := field
      by_cases same : name = key
      · rw [List.map_cons, if_pos (beq_iff_eq.mpr same), lookup_cons_eq, lookup_cons_eq, ih, same]
        by_cases sought : other = key <;> simp [sought]
      · rw [List.map_cons, if_neg (mt beq_iff_eq.mp same), lookup_cons_eq, lookup_cons_eq, ih]
        by_cases sought : other = name <;> simp [sought, same]
  have held : fields.any (·.1 == key) = (fields.lookup key).isSome := by
    rw [Bool.eq_iff_iff, lookup_isSome_iff]
    simp
  unfold put
  rw [held]
  cases found : fields.lookup key with
  | some old =>
    rw [Option.isSome_some, if_pos rfl, replaced]
    by_cases sought : other = key
    · rw [sought, found, Option.map_some, if_pos rfl, if_pos rfl]
    · simp [sought]
  | none =>
    rw [Option.isSome_none, if_neg Bool.false_ne_true, List.lookup_append, lookup_cons_eq]
    by_cases sought : other = key <;> simp [sought, found]

/-! ## Fields by their keys -/

section ByKey

variable {α β : Type} {fields fields' : List (String × α)}

def byKey (fields : List (String × α)) : List (String × α) :=
  fields.mergeSort fun a b => decide (a.1 ≤ b.1)

theorem byKey_perm (fields : List (String × α)) : (byKey fields).Perm fields :=
  List.mergeSort_perm _ _

theorem byKey_pairwise (fields : List (String × α)) :
    (byKey fields).Pairwise fun a b => a.1 ≤ b.1 := by
  have sorted : (byKey fields).Pairwise fun a b => decide (a.1 ≤ b.1) = true := by
    refine List.pairwise_mergeSort (fun a b c first second => ?_) (fun a b => ?_) fields
    · rw [decide_eq_true_iff] at first second ⊢
      exact first.trans second
    · rw [Bool.or_eq_true, decide_eq_true_iff, decide_eq_true_iff]
      exact le_total a.1 b.1
  exact sorted.imp of_decide_eq_true

theorem eq_of_mem_of_key_eq (distinct : (fields.map Prod.fst).Nodup) {field field' : String × α}
    (member : field ∈ fields) (member' : field' ∈ fields) (same : field.1 = field'.1) :
    field = field' :=
  List.inj_on_of_nodup_map distinct member member' same

/-- Where no key stands twice, sorting by key forgets the order. -/
theorem byKey_eq_of_perm (distinct : (fields.map Prod.fst).Nodup) (perm : fields.Perm fields') :
    byKey fields = byKey fields' := by
  have sorted : (byKey fields).Perm (byKey fields') :=
    (byKey_perm fields).trans (perm.trans (byKey_perm fields').symm)
  refine sorted.eq_of_pairwise (fun a b here there below above => ?_) (byKey_pairwise fields)
    (byKey_pairwise fields')
  have member : a ∈ fields := (byKey_perm fields).subset here
  have member' : b ∈ fields := perm.symm.subset ((byKey_perm fields').subset there)
  exact eq_of_mem_of_key_eq distinct member member' (le_antisymm below above)

theorem byKey_map (f : String × α → β) (fields : List (String × α)) :
    byKey (fields.map fun field => (field.1, f field)) =
      (byKey fields).map fun field => (field.1, f field) := by
  unfold byKey
  exact (List.map_mergeSort (f := fun field => (field.1, f field)) fun _ _ _ _ => rfl).symm

end ByKey

/-- Fields in another order make the same object. -/
theorem Same.of_perm {fields fields' : List (String × Json)} (distinct : (fields.map Prod.fst).Nodup)
    (perm : fields.Perm fields') : Same (.object fields) (.object fields') := by
  refine .object (perm.map Prod.fst) fun key value value' here there => ?_
  have field := eq_of_mem_of_key_eq distinct here (perm.symm.subset there) rfl
  obtain rfl : value = value' := congrArg Prod.snd field
  exact .refl value

/-! ## Keys in order -/

mutual

/-- The value with the keys of every object in order. -/
def arranged : Json → Json
  | .array items => .array (arrangedItems items)
  | .object fields => .object (byKey (arrangedFields fields))
  | value => value

def arrangedItems : List Json → List Json
  | [] => []
  | item :: rest => arranged item :: arrangedItems rest

def arrangedFields : List (String × Json) → List (String × Json)
  | [] => []
  | (key, value) :: rest => (key, arranged value) :: arrangedFields rest

end

theorem arrangedItems_eq (items : List Json) : arrangedItems items = items.map arranged := by
  induction items with
  | nil => rfl
  | cons item rest ih => rw [arrangedItems, ih, List.map_cons]

theorem arrangedFields_eq (fields : List (String × Json)) :
    arrangedFields fields = fields.map fun field => (field.1, arranged field.2) := by
  induction fields with
  | nil => rfl
  | cons field rest ih => rw [arrangedFields, ih, List.map_cons]

theorem arranged_array (items : List Json) : arranged (.array items) = .array (items.map arranged) := by
  rw [arranged, arrangedItems_eq]

theorem arranged_object (fields : List (String × Json)) : arranged (.object fields) =
    .object ((byKey fields).map fun field => (field.1, arranged field.2)) := by
  rw [arranged, arrangedFields_eq, byKey_map fun field => arranged field.2]

/-- Putting the keys in order changes nothing else. -/
theorem Proper.same_arranged {value : Json} (proper : Proper value) : Same value value.arranged := by
  induction proper with
  | null => exact .refl _
  | bool value => exact .refl _
  | int value => exact .refl _
  | text formed => exact .refl _
  | array _ ih =>
    rw [arranged_array]
    refine .array (List.length_map _).symm fun i item item' here there => ?_
    rw [List.getElem?_map, here] at there
    cases there
    exact ih item (List.mem_of_getElem? here)
  | @object fields distinct _ _ ih =>
    rw [arranged_object]
    refine .object ?_ fun key value value' here there => ?_
    · rw [List.map_map]
      exact ((byKey_perm fields).map Prod.fst).symm
    · obtain ⟨field, found, shape⟩ := List.mem_map.mp there
      obtain ⟨rfl, rfl⟩ := Prod.mk.inj shape
      rw [← eq_of_mem_of_key_eq distinct here ((byKey_perm fields).subset found) rfl]
      exact ih _ here

/-! ## The text of the sorted form -/

/-- One field of an object. -/
def fieldText (field : String × Json) : List Nat :=
  stringCodes field.1 ++ wordCodes ":" ++ canonicalCodes field.2

theorem itemCodes_eq (items : List Json) : itemCodes items = items.map canonicalCodes := by
  induction items with
  | nil => rfl
  | cons item rest ih => rw [itemCodes, ih, List.map_cons]

theorem fieldCodes_eq (fields : List (String × Json)) :
    fieldCodes fields = fields.map fun field => (field.1, fieldText field) := by
  induction fields with
  | nil => rfl
  | cons field rest ih =>
    rw [fieldCodes, ih, List.map_cons]
    rfl

theorem canonicalCodes_array (items : List Json) : canonicalCodes (.array items) =
    wordCodes "[" ++ commaSeparated (items.map canonicalCodes) ++ wordCodes "]" := by
  rw [canonicalCodes, itemCodes_eq]

theorem fieldCodes_keys (fields : List (String × Json)) :
    (fieldCodes fields).map Prod.fst = fields.map Prod.fst := by
  rw [fieldCodes_eq, List.map_map]
  rfl

theorem canonicalCodes_object (fields : List (String × Json)) : canonicalCodes (.object fields) =
    wordCodes "\x7b" ++ commaSeparated ((byKey fields).map fieldText) ++ wordCodes "\x7d" := by
  have sorted : (byKey (fieldCodes fields)).map Prod.snd = (byKey fields).map fieldText := by
    rw [fieldCodes_eq, byKey_map, List.map_map]
    rfl
  rw [canonicalCodes, ← sorted]
  rfl

theorem fieldCodes_subset {fields fields' : List (String × Json)}
    (keys : (fields.map Prod.fst).Perm (fields'.map Prod.fst))
    (texts : ∀ key value value', (key, value) ∈ fields → (key, value') ∈ fields' →
      canonicalCodes value = canonicalCodes value') : fieldCodes fields ⊆ fieldCodes fields' := by
  intro pair member
  rw [fieldCodes_eq] at member ⊢
  obtain ⟨⟨key, value⟩, here, rfl⟩ := List.mem_map.mp member
  obtain ⟨value', there⟩ := exists_field_of_perm keys here
  refine List.mem_map.mpr ⟨(key, value'), there, ?_⟩
  rw [fieldText, fieldText, texts key value value' here there]

/-- What differs in the order of keys alone has one text. -/
theorem Same.canonicalCodes_eq {a b : Json} (same : Same a b) (proper : Proper a) :
    canonicalCodes a = canonicalCodes b := by
  induction same with
  | refl => rfl
  | @array items items' lengths _ ih =>
    cases proper with
    | array proper =>
      have texts : items.map canonicalCodes = items'.map canonicalCodes := by
        apply List.ext_getElem (by simpa using lengths)
        intro i bound bound'
        rw [List.getElem_map, List.getElem_map]
        exact ih i _ _ (List.getElem?_eq_getElem _) (List.getElem?_eq_getElem _)
          (proper _ (List.getElem_mem _))
      rw [canonicalCodes_array, canonicalCodes_array, texts]
  | @object fields fields' keys _ ih =>
    cases proper with
    | object distinct _ proper =>
      have texts : ∀ key value value', (key, value) ∈ fields → (key, value') ∈ fields' →
          canonicalCodes value = canonicalCodes value' :=
        fun key value value' here there => ih key value value' here there (proper _ here)
      have distinct' : (fields'.map Prod.fst).Nodup := keys.nodup_iff.mp distinct
      rw [← fieldCodes_keys] at distinct distinct'
      have onward := fieldCodes_subset keys texts
      have back := fieldCodes_subset keys.symm
        fun key value value' here there => (texts key value' value there here).symm
      have perm : (fieldCodes fields).Perm (fieldCodes fields') :=
        (List.Nodup.subperm distinct.of_map onward).antisymm
          (List.Nodup.subperm distinct'.of_map back)
      have sorted := byKey_eq_of_perm distinct perm
      unfold byKey at sorted
      rw [canonicalCodes, canonicalCodes, sorted]

end ApiDelta.Json
