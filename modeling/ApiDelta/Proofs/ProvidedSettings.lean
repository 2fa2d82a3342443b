import ApiDelta.Proofs.SchemaReading
import ApiDelta.Settings

/-!
Settings as their sources provide them. Objects are laid over each other key by key: a key leads to what
lies on top, and keys that are new go last. So the record that the sources make up is told by a map from
each key to the value that the first source gives for it, and by which unknown key it has first.
-/
namespace ApiDelta

/-! ## Overlays -/

namespace Json

/-- Equal, or two objects: what lies on an object is merged with it, and no setting can tell. -/
inductive Akin : Json → Json → Prop where
  | refl (value : Json) : Akin value value
  | objects (fields fields' : List (String × Json)) : Akin (.object fields) (.object fields')

theorem overlay_akin (below above : Json) : Akin (overlay below above) above := by
  cases above with
  | object fields =>
    cases below with
    | object fields' => exact .objects _ _
    | _ => exact .refl _
  | _ => cases below <;> exact .refl _

theorem keys_put (fields : List (String × Json)) (key : String) (value : Json) :
    (put fields key value).map Prod.fst =
      if key ∈ fields.map Prod.fst then fields.map Prod.fst else fields.map Prod.fst ++ [key] :=
  Schema.keys_set fields key value

/-- A key that lies above leads to its value, up to what it is merged with, and any other key to what it
led to below. -/
theorem lookup_overlayFields {above : List (String × Json)} (distinct : (above.map Prod.fst).Nodup)
    (below : List (String × Json)) (key : String) :
    (overlay.overlayFields below above).lookup key =
      match above.lookup key with
      | some value => some (match below.lookup key with
        | some old => overlay old value
        | none => value)
      | none => below.lookup key := by
  induction above generalizing below with
  | nil => rfl
  | cons field rest ih =>
    obtain ⟨name, value⟩ := field
    obtain ⟨fresh, others⟩ := List.nodup_cons.mp distinct
    rw [overlay.overlayFields, ih others, lookup_cons_eq, lookup_put]
    rcases eq_or_ne key name with rfl | different
    · have absent : rest.lookup key = none := by
        rw [← Option.not_isSome_iff_eq_none, lookup_isSome_iff]
        exact fresh
      cases below.lookup key <;> simp only [absent, if_true]
    · rw [if_neg different, if_neg different]

/-- Keys that are new go last, in their order. -/
theorem keys_overlayFields {above : List (String × Json)} (distinct : (above.map Prod.fst).Nodup)
    (below : List (String × Json)) :
    (overlay.overlayFields below above).map Prod.fst =
      below.map Prod.fst ++
        (above.map Prod.fst).filter (fun key => !(below.map Prod.fst).contains key) := by
  induction above generalizing below with
  | nil => exact (List.append_nil _).symm
  | cons field rest ih =>
    obtain ⟨name, value⟩ := field
    obtain ⟨fresh, others⟩ := List.nodup_cons.mp distinct
    rw [overlay.overlayFields, ih others, keys_put, List.map_cons]
    by_cases held : name ∈ below.map Prod.fst
    · rw [if_pos held, List.filter_cons_of_neg (by simpa using held)]
    · have apart : (rest.map Prod.fst).filter (fun key => !(below.map Prod.fst ++ [name]).contains key) =
          (rest.map Prod.fst).filter (fun key => !(below.map Prod.fst).contains key) := by
        refine List.filter_congr fun key member => ?_
        have other : key ≠ name := fun same => fresh (same ▸ member)
        simp [other]
      rw [if_neg held, List.filter_cons_of_pos (by simpa using held), apart, List.append_assoc,
        List.singleton_append]

/-- The first key of some sort stands below, or else above. -/
theorem find?_keys_overlayFields {above : List (String × Json)} (distinct : (above.map Prod.fst).Nodup)
    (below : List (String × Json)) (sort : String → Bool) :
    ((overlay.overlayFields below above).map Prod.fst).find? sort =
      ((below.map Prod.fst).find? sort).or ((above.map Prod.fst).find? sort) := by
  rw [keys_overlayFields distinct, List.find?_append]
  cases found : (below.map Prod.fst).find? sort with
  | some key => rfl
  | none =>
    have fresh : (fun key => decide ((!(below.map Prod.fst).contains key) = true ∧ sort key = true)) =
        sort := by
      funext key
      rw [Bool.eq_iff_iff, decide_eq_true_iff, and_iff_right_iff_imp, Bool.not_eq_true',
        List.contains_eq_mem, decide_eq_false_iff_not]
      exact fun sorted member => List.find?_eq_none.mp found key member sorted
    rw [Option.none_or, Option.none_or, List.find?_filter, fresh]

end Json

namespace Settings

open Schema

/-! ## What the sources provide -/

/-- The value of the variable that is named for a key, the last one of several spellings. -/
def exported? (environment : List (String × String)) (key : String) : Option Json :=
  (environment.filter fun pair => pair.1.map foldCase = variableMark ++ key).getLast?.map fun pair =>
    .text pair.2

/-- The value that the first source gives for a key. Only the settings have variables. -/
def provided (overrides : Fields) (environment : List (String × String)) (file : Fields) (key : String) :
    Option Json :=
  ((stated overrides).lookup key).or
    ((if key ∈ keys then exported? environment key else none).or (file.lookup key))

section Gathered

variable {value? : String → Option Json} {names : List String}

theorem lookup_filterMap (key : String) :
    (names.filterMap fun name => (value? name).map fun value => (name, value)).lookup key =
      if key ∈ names then value? key else none := by
  induction names with
  | nil => rfl
  | cons name rest ih =>
    rw [List.filterMap_cons]
    cases held : value? name with
    | none =>
      simp only [Option.map_none, ih]
      by_cases same : key = name <;> simp [same, held]
    | some value =>
      simp only [Option.map_some, Json.lookup_cons_eq, ih]
      by_cases same : key = name <;> simp [same, held]

theorem keys_filterMap_sublist :
    ((names.filterMap fun name => (value? name).map fun value => (name, value)).map
      Prod.fst).Sublist names := by
  induction names with
  | nil => exact .slnil
  | cons name rest ih =>
    rw [List.filterMap_cons]
    cases value? name with
    | none => exact ih.cons name
    | some value => exact ih.cons_cons name

end Gathered

theorem ofEnvironment_eq (environment : List (String × String)) :
    ofEnvironment environment = keys.filterMap fun name =>
      (exported? environment name).map fun value => (name, value) := by
  simp only [exported?, Option.map_map]
  rfl

theorem keys_ofEnvironment_sublist (environment : List (String × String)) :
    ((ofEnvironment environment).map Prod.fst).Sublist keys :=
  ofEnvironment_eq environment ▸ keys_filterMap_sublist

theorem distinct_ofEnvironment (environment : List (String × String)) :
    ((ofEnvironment environment).map Prod.fst).Nodup :=
  (keys_ofEnvironment_sublist environment).nodup (by decide)

theorem distinct_stated {overrides : Fields} (distinct : (overrides.map Prod.fst).Nodup) :
    ((stated overrides).map Prod.fst).Nodup :=
  ((List.filter_sublist).map Prod.fst).nodup distinct

section Merged

variable {overrides : Fields} {environment : List (String × String)} {file : Fields}

/-- The record has the keys that are provided, each with the value that is, up to what it is merged
with. -/
theorem lookup_merged (distinct : (overrides.map Prod.fst).Nodup) (key : String) :
    Option.Rel Json.Akin ((merged overrides environment file).lookup key)
      (provided overrides environment file key) := by
  have below : (Json.overlay.overlayFields file (ofEnvironment environment)).lookup key =
      (if key ∈ keys then exported? environment key else none).or (file.lookup key) := by
    rw [Json.lookup_overlayFields (distinct_ofEnvironment environment), ofEnvironment_eq,
      lookup_filterMap]
    by_cases known : key ∈ keys
    · rw [if_pos known]
      cases exported : exported? environment key with
      | none => rfl
      | some value =>
        -- A variable is a text, which replaces what it lies on, an object too.
        obtain ⟨pair, _, rfl⟩ := Option.map_eq_some_iff.mp exported
        cases file.lookup key with
        | none => rfl
        | some old => cases old <;> rfl
    · rw [if_neg known]
      rfl
  unfold merged provided
  rw [Json.lookup_overlayFields (distinct_stated distinct), below]
  cases (stated overrides).lookup key with
  | some value =>
    refine .some ?_
    split
    · exact Json.overlay_akin _ value
    · exact .refl value
  | none =>
    rw [Option.none_or]
    cases (if key ∈ keys then exported? environment key else none).or (file.lookup key) with
    | some value => exact .some (.refl value)
    | none => exact .none

/-- The record has a key exactly if some source provides it. -/
theorem mem_keys_merged_iff (distinct : (overrides.map Prod.fst).Nodup) {key : String} :
    key ∈ (merged overrides environment file).map Prod.fst ↔
      (provided overrides environment file key).isSome := by
  have related : Option.Rel Json.Akin ((merged overrides environment file).lookup key)
      (provided overrides environment file key) := lookup_merged distinct key
  rw [← Json.lookup_isSome_iff]
  revert related
  generalize (merged overrides environment file).lookup key = found
  generalize provided overrides environment file key = value
  rintro (_ | _) <;> simp

/-- The first unknown key of the record stands in the file, or else is an override. -/
theorem find?_unknown_merged (environment : List (String × String)) (file : Fields)
    (distinct : (overrides.map Prod.fst).Nodup) :
    ((merged overrides environment file).map Prod.fst).find? (fun key => !keys.contains key) =
      ((file.map Prod.fst).find? fun key => !keys.contains key).or
        (((stated overrides).map Prod.fst).find? fun key => !keys.contains key) := by
  have known : ((ofEnvironment environment).map Prod.fst).find? (fun key => !keys.contains key) = none :=
    List.find?_eq_none.mpr fun key member => by
      simpa using (keys_ofEnvironment_sublist environment).subset member
  rw [merged, Json.find?_keys_overlayFields (distinct_stated distinct),
    Json.find?_keys_overlayFields (distinct_ofEnvironment environment), known, Option.or_none]

end Merged

end Settings

end ApiDelta
