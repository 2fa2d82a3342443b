import ApiDelta.Proofs.ProvidedSettings

/-!
Precedence of settings. The sources of settings are laid over each other and then checked as one record.
What comes of it is told by what they provide: a value is settled key by key, and what stands behind
another is not looked at. Only the place of an unknown key in the record is not told by that, and if
several keys are unknown, their places decide which of them is named.
-/
namespace ApiDelta

namespace Settings

open Schema

/-! ## Checking what is provided -/

section Settled

variable {α β : Type} {m : String → Option Json}

/-- The value provided for a key as it is checked, or the default if none is. -/
def settle (m : String → Option Json) (key : String) (default : α) (check : Json → Checked α) :
    Checked α :=
  match m key with
  | some value => (check value).under (.key key)
  | none => .sound default

/-- A check that takes all objects alike cannot tell what is provided from what the record has. -/
theorem optional_merged {overrides file : Fields} {environment : List (String × String)}
    (distinct : (overrides.map Prod.fst).Nodup) {check : Json → Checked α}
    (blind : ∀ fields fields', check (.object fields) = check (.object fields')) (key : String)
    (default : α) : Schema.optional (merged overrides environment file) key default check =
      settle (provided overrides environment file) key default check := by
  have related : Option.Rel Json.Akin ((merged overrides environment file).lookup key)
      (provided overrides environment file key) := lookup_merged distinct key
  unfold Schema.optional settle
  revert related
  generalize (merged overrides environment file).lookup key = found
  generalize provided overrides environment file key = value
  rintro (akin | _)
  · cases akin with
    | refl => rfl
    | objects fields fields' => exact congrArg (Checked.under (.key key)) (blind fields fields')
  · rfl

def isSound : Checked α → Bool
  | .sound _ => true
  | .faulty _ => false

/-- Whether a key may have a value. -/
def accepts (key : String) (value : Json) : Bool :=
  if key = "format" then isSound (literal Format.table value)
  else if key = "fail_on_breaking" then isSound (boolean value)
  else if key = "verbosity" then isSound (natural value)
  else false

/-- Whether the value provided for a key is one that it may not have. -/
def refuses (m : String → Option Json) (key : String) : Bool :=
  (m key).any fun value => !accepts key value

/-- Each setting is the value provided for it, or else its default. -/
structure Validated (m : String → Option Json) (s : Settings) : Prop where
  format : settle m "format" .text (literal Format.table) = .sound s.format
  failOnBreaking : settle m "fail_on_breaking" false boolean = .sound s.failOnBreaking
  verbosity : settle m "verbosity" 0 natural = .sound s.verbosity

/-- The first fault of a check. -/
def Starts (fault : Fault) (checked : Checked α) : Prop :=
  ∃ rest, checked = .faulty (fault :: rest)

theorem Starts.map {fault : Fault} {checked : Checked α} (starts : Starts fault checked) (f : α → β) :
    Starts fault (checked.map f) := by
  obtain ⟨rest, rfl⟩ := starts
  exact ⟨rest, rfl⟩

theorem Starts.apply_left {fault : Fault} {function : Checked (α → β)} (starts : Starts fault function)
    (checked : Checked α) : Starts fault (function.apply checked) := by
  obtain ⟨rest, rfl⟩ := starts
  cases checked with
  | sound x => exact ⟨rest, rfl⟩
  | faulty faults => exact ⟨rest ++ faults, rfl⟩

theorem Starts.apply_right {fault : Fault} {checked : Checked α} (starts : Starts fault checked)
    (f : α → β) : Starts fault (Checked.apply (.sound f) checked) := by
  obtain ⟨rest, rfl⟩ := starts
  exact ⟨rest, rfl⟩

/-- A value is settled or refused, and then the first fault is under its key. -/
theorem settle_cases {check : Json → Checked α} (definite : ∀ value, check value ≠ .faulty [])
    (m : String → Option Json) (key : String) (default : α) :
    (∃ x, settle m key default check = .sound x ∧
      (m key).any (fun value => !isSound (check value)) = false) ∨
      ∃ location reason, Starts ⟨.key key :: location, reason⟩ (settle m key default check) ∧
        (m key).any (fun value => !isSound (check value)) = true := by
  unfold settle
  cases m key with
  | none => exact .inl ⟨default, rfl, rfl⟩
  | some value =>
    cases checked : check value with
    | sound x => exact .inl ⟨x, by simp only [checked, Checked.under], by simp [isSound, checked]⟩
    | faulty faults =>
      obtain ⟨fault, rest, rfl⟩ := List.exists_cons_of_ne_nil fun none : faults = [] =>
        definite value (none ▸ checked)
      refine .inr ⟨fault.location, fault.reason, ⟨rest.map (Fault.under (.key key)), ?_⟩,
        by simp [isSound, checked]⟩
      simp only [checked, Checked.under]
      rfl

/-! A check that finds fault says where. -/

theorem ofCharacters_definite {value : String} {made : Checked α} (definite : made ≠ .faulty []) :
    ofCharacters value made ≠ .faulty [] := by
  unfold ofCharacters
  split
  · exact definite
  · nofun

theorem literal_definite (table : List (String × α)) (value : Json) :
    literal table value ≠ .faulty [] := by
  cases value with
  | text word =>
    refine ofCharacters_definite ?_
    split <;> nofun
  | _ => nofun

theorem integerOfReal_definite (value : Binary64) : integerOfReal value ≠ .faulty [] := by
  unfold integerOfReal
  split
  · nofun
  · split
    · nofun
    · split <;> nofun

theorem integer_definite (value : Json) : integer value ≠ .faulty [] := by
  cases value with
  | real value => exact integerOfReal_definite value
  | text value =>
    refine ofCharacters_definite ?_
    split <;> nofun
  | _ => nofun

theorem natural_definite (value : Json) : natural value ≠ .faulty [] := by
  have definite := integer_definite value
  unfold natural
  cases checked : integer value with
  | sound n =>
    rw [Checked.andThen]
    split <;> nofun
  | faulty faults =>
    rw [checked] at definite
    exact fun none => definite (congrArg Checked.faulty (Checked.faulty.inj none))

theorem booleanOfInteger_definite (value : Int) : booleanOfInteger value ≠ .faulty [] := by
  unfold booleanOfInteger
  split
  · nofun
  · split
    · nofun
    · split <;> nofun

theorem boolean_definite (value : Json) : boolean value ≠ .faulty [] := by
  cases value with
  | int value => exact booleanOfInteger_definite value
  | real value =>
    rw [boolean]
    cases integerOfReal value with
    | sound n => exact booleanOfInteger_definite n
    | faulty faults => nofun
  | text value =>
    refine ofCharacters_definite ?_
    split
    · nofun
    · split <;> nofun
  | _ => nofun

/-- There are no unknown keys, or the first fault is at the first of them. -/
theorem noExtras_cases (known : List String) (fields : Fields) :
    (noExtras known fields = .sound () ∧
      (fields.map Prod.fst).find? (fun key => !known.contains key) = none) ∨
    ∃ key, Starts ⟨[.key key], .extraKey⟩ (noExtras known fields) ∧
      (fields.map Prod.fst).find? (fun key => !known.contains key) = some key := by
  have first : (fields.map Prod.fst).find? (fun key => !known.contains key) =
      (fields.filter fun field => !known.contains field.1).head?.map Prod.fst := by
    rw [List.find?_map, ← List.head?_filter]
    rfl
  rw [first, noExtras, extraFaults]
  cases fields.filter (fun field => !known.contains field.1) with
  | nil => exact .inl ⟨rfl, rfl⟩
  | cons field rest => exact .inr ⟨field.1, ⟨_, rfl⟩, rfl⟩

/-- The first key that the settings are refused for: a setting, or else a key that is none. -/
def firstRefused (m : String → Option Json) (unknown : Option String) : Option String :=
  (keys.find? (refuses m)).or unknown

end Settled

section Checks

variable {overrides : Fields} {environment : List (String × String)} {file : Fields}

/-- An unknown key that is met first. -/
def firstUnknown (overrides file : Fields) : Option String :=
  ((file.map Prod.fst).find? fun key => !keys.contains key).or
    (((stated overrides).map Prod.fst).find? fun key => !keys.contains key)

/-- Where all keys are proper texts, the settings are what is provided, or the first fault is under the
first refused key. -/
theorem check_merged_cases (distinct : (overrides.map Prod.fst).Nodup)
    (formed : ∀ key, (provided overrides environment file key).isSome → Text.isWellFormed key) :
    (∃ s, check (merged overrides environment file) = .sound s ∧
      Validated (provided overrides environment file) s ∧
      firstRefused (provided overrides environment file) (firstUnknown overrides file) = none) ∨
    ∃ key location reason,
      Starts ⟨.key key :: location, reason⟩ (check (merged overrides environment file)) ∧
      firstRefused (provided overrides environment file) (firstUnknown overrides file) = some key := by
  have proper : (merged overrides environment file).all (fun field => Text.isWellFormed field.1) = true :=
    List.all_eq_true.mpr fun field member =>
      formed field.1 ((mem_keys_merged_iff distinct).mp (List.mem_map_of_mem member))
  have extras := noExtras_cases keys (merged overrides environment file)
  rw [find?_unknown_merged environment file distinct, ← firstUnknown] at extras
  rw [check, closed, if_pos proper, optional_merged distinct fun _ _ => rfl,
    optional_merged distinct fun _ _ => rfl, optional_merged distinct fun _ _ => rfl]
  generalize provided overrides environment file = m
  have order : keys.find? (refuses m) =
      if refuses m "format" then some "format"
      else if refuses m "fail_on_breaking" then some "fail_on_breaking"
      else if refuses m "verbosity" then some "verbosity" else none := by
    unfold keys
    simp only [List.find?_cons, List.find?_nil]
    repeat' split
    all_goals simp_all
  rw [firstRefused, order]
  -- Faults are listed in the order of the fields, and those of unknown keys after them: the first
  -- value that is refused settles which fault is first, whatever comes of the later ones.
  rcases settle_cases (literal_definite Format.table) m "format" .text with
    ⟨format, formats, accepted⟩ | ⟨location, reason, starts, refused⟩
  · replace accepted : refuses m "format" = false := accepted
    rcases settle_cases boolean_definite m "fail_on_breaking" false with
      ⟨failOnBreaking, fails, accepted'⟩ | ⟨location, reason, starts, refused⟩
    · replace accepted' : refuses m "fail_on_breaking" = false := accepted'
      rcases settle_cases natural_definite m "verbosity" 0 with
        ⟨verbosity, tells, accepted''⟩ | ⟨location, reason, starts, refused⟩
      · replace accepted'' : refuses m "verbosity" = false := accepted''
        rw [accepted, accepted', accepted'', formats, fails, tells]
        rcases extras with ⟨none, unknown⟩ | ⟨key, starts, unknown⟩
        · rw [none, unknown]
          exact .inl ⟨⟨format, failOnBreaking, verbosity⟩, rfl, ⟨formats, fails, tells⟩, rfl⟩
        · rw [unknown]
          exact .inr ⟨key, [], .extraKey, starts.apply_right _, rfl⟩
      · replace refused : refuses m "verbosity" = true := refused
        rw [accepted, accepted', refused, formats, fails]
        exact .inr ⟨_, _, _, ((starts.apply_right _).map _).apply_left _, rfl⟩
    · replace refused : refuses m "fail_on_breaking" = true := refused
      rw [accepted, refused, formats]
      exact .inr ⟨_, _, _, (((starts.apply_right _).apply_left _).map _).apply_left _, rfl⟩
  · replace refused : refuses m "format" = true := refused
    rw [refused]
    exact .inr ⟨_, _, _, ((((starts.map _).apply_left _).apply_left _).map _).apply_left _, rfl⟩

end Checks

/-! ## What a run comes to -/

/-- What comes of settings, as told by what is provided and by the first unknown key. -/
inductive Outcome (m : String → Option Json) (unknown : Option String) :
    Except SettingsFault Settings → Prop where
  | settled {s : Settings} (clear : firstRefused m unknown = none) (valid : Validated m s) :
      Outcome m unknown (.ok s)
  | refused {fault : SettingsFault} {key : String}
      (formed : ∀ key, (m key).isSome → Text.isWellFormed key)
      (first : firstRefused m unknown = some key) (named : fault.key? = some key) :
      Outcome m unknown (.error fault)
  | illFormed {fault : SettingsFault} {key : String} (held : (m key).isSome)
      (improper : ¬Text.isWellFormed key) (unnamed : fault.key? = some "") :
      Outcome m unknown (.error fault)

section Outcomes

variable {overrides : Fields} {environment environment' : List (String × String)} {file file' : Fields}
variable {m : String → Option Json} {unknown unknown' : Option String}

theorem outcome_resolve (environment : List (String × String)) (file : Fields)
    (distinct : (overrides.map Prod.fst).Nodup) :
    Outcome (provided overrides environment file) (firstUnknown overrides file)
      (resolve overrides environment file) := by
  unfold resolve
  dsimp only
  by_cases formed : ∀ key, (provided overrides environment file key).isSome → Text.isWellFormed key
  · rcases check_merged_cases distinct formed with
      ⟨s, checked, valid, clear⟩ | ⟨key, location, reason, ⟨rest, checked⟩, first⟩
    · rw [checked]
      exact .settled clear valid
    · rw [checked]
      exact .refused formed first rfl
  · obtain ⟨key, formed⟩ := not_forall.mp formed
    obtain ⟨held, improper⟩ := Classical.not_imp.mp formed
    obtain ⟨field, member, rfl⟩ := List.mem_map.mp ((mem_keys_merged_iff distinct).mpr held)
    have mixed : ¬(merged overrides environment file).all fun field => Text.isWellFormed field.1 :=
      fun proper => improper (List.all_eq_true.mp proper field member)
    have checked : check (merged overrides environment file) = .fault .illFormedText := by
      rw [check, closed, if_neg mixed]
    rw [checked]
    exact .illFormed held improper rfl

theorem not_refuses_of_settle {α : Type} {key : String} {default x : α} {check : Json → Checked α}
    (settled : settle m key default check = .sound x) :
    (m key).any (fun value => !isSound (check value)) = false := by
  unfold settle at settled
  cases held : m key with
  | none => rfl
  | some value =>
    rw [held] at settled
    rw [Option.any_some, under_eq_sound_iff.mp settled]
    rfl

theorem Validated.not_refuses {s : Settings} (valid : Validated m s) {key : String}
    (known : key ∈ keys) : refuses m key = false := by
  simp only [keys, List.mem_cons, List.not_mem_nil, or_false] at known
  rcases known with rfl | rfl | rfl
  · exact not_refuses_of_settle valid.format
  · exact not_refuses_of_settle valid.failOnBreaking
  · exact not_refuses_of_settle valid.verbosity

theorem Validated.unique {s s' : Settings} (valid : Validated m s) (valid' : Validated m s') :
    s = s' := by
  obtain ⟨format, failOnBreaking, verbosity⟩ := s
  cases Checked.sound.inj (valid.format.symm.trans valid'.format)
  cases Checked.sound.inj (valid.failOnBreaking.symm.trans valid'.failOnBreaking)
  cases Checked.sound.inj (valid.verbosity.symm.trans valid'.verbosity)
  rfl

theorem firstRefused_eq_some {key : String} (first : firstRefused m unknown = some key) :
    (key ∈ keys ∧ refuses m key = true) ∨ keys.find? (refuses m) = none ∧ unknown = some key := by
  unfold firstRefused at first
  cases found : keys.find? (refuses m) with
  | some other =>
    rw [found] at first
    cases first
    exact .inl ⟨List.mem_of_find?_eq_some found, List.find?_some found⟩
  | none =>
    rw [found] at first
    exact .inr ⟨rfl, first⟩

/-- The first unknown key is provided, and if there is none, all keys that are provided are known. -/
theorem firstUnknown_cases (environment : List (String × String)) (file : Fields)
    (distinct : (overrides.map Prod.fst).Nodup) :
    (firstUnknown overrides file = none ∧
      ∀ key, (provided overrides environment file key).isSome → key ∈ keys) ∨
    ∃ key, firstUnknown overrides file = some key ∧ key ∉ keys ∧
      (provided overrides environment file key).isSome := by
  have first := find?_unknown_merged environment file distinct
  rw [← firstUnknown] at first
  rw [← first]
  cases found : ((merged overrides environment file).map Prod.fst).find? fun key => !keys.contains key with
  | none =>
    refine .inl ⟨rfl, fun key held => ?_⟩
    have known := List.find?_eq_none.mp found key ((mem_keys_merged_iff distinct).mpr held)
    simpa using known
  | some key =>
    refine .inr ⟨key, rfl, by simpa using List.find?_some found, ?_⟩
    exact (mem_keys_merged_iff distinct).mp (List.mem_of_find?_eq_some found)

/-- Runs for which the same is provided come to the same, but for which of several unknown keys is
named. -/
theorem Outcome.key_eq {fault fault' : SettingsFault} (outcome : Outcome m unknown (.error fault))
    (outcome' : Outcome m unknown' (.error fault')) :
    fault.key? = fault'.key? ∨
      unknown ≠ unknown' ∧ fault.key? = unknown ∧ fault'.key? = unknown' := by
  cases outcome with
  | illFormed held improper unnamed =>
    cases outcome' with
    | illFormed _ _ unnamed' => exact .inl (unnamed.trans unnamed'.symm)
    | refused formed => exact absurd (formed _ held) improper
  | refused formed first named =>
    cases outcome' with
    | illFormed held improper => exact absurd (formed _ held) improper
    | refused _ first' named' =>
      by_cases same : unknown = unknown'
      · subst same
        exact .inl (named.trans ((first.symm.trans first').trans named'.symm))
      · unfold firstRefused at first first'
        cases found : keys.find? (refuses m) with
        | some key =>
          rw [found, Option.some_or] at first first'
          exact .inl (named.trans ((first.symm.trans first').trans named'.symm))
        | none =>
          rw [found, Option.none_or] at first first'
          exact .inr ⟨same, named.trans first.symm, named'.trans first'.symm⟩

theorem resolve_eq_ok_iff (distinct : (overrides.map Prod.fst).Nodup) {s : Settings} :
    resolve overrides environment file = .ok s ↔
      (∀ key, (provided overrides environment file key).isSome → key ∈ keys) ∧
        Validated (provided overrides environment file) s := by
  have outcome : Outcome (provided overrides environment file) (firstUnknown overrides file)
      (resolve overrides environment file) := outcome_resolve environment file distinct
  have unknown := firstUnknown_cases environment file distinct
  revert outcome
  generalize resolve overrides environment file = result
  intro outcome
  constructor
  · rintro rfl
    cases outcome with
    | settled clear valid =>
      rcases unknown with ⟨_, known⟩ | ⟨key, named, _⟩
      · exact ⟨known, valid⟩
      · rw [named, firstRefused, Option.or_eq_none_iff] at clear
        cases clear.2
  · rintro ⟨known, valid⟩
    cases outcome with
    | settled clear valid' => rw [valid.unique valid']
    | refused formed first named =>
      rcases firstRefused_eq_some first with ⟨member, refused⟩ | ⟨_, named⟩
      · rw [valid.not_refuses member] at refused
        cases refused
      · rcases unknown with ⟨none, _⟩ | ⟨key, _, strange, held⟩
        · rw [none] at named
          cases named
        · exact absurd (known key held) strange
    | illFormed held improper =>
      have formed : ∀ key ∈ keys, Text.isWellFormed key := by decide
      exact absurd (formed _ (known _ held)) improper

/-- Two runs with the same overrides see the same of their environments and files: wherever these differ,
a source that comes first has the key. -/
structure AgreeInSight (overrides : Fields) (environment environment' : List (String × String))
    (file file' : Fields) : Prop where
  exports : ∀ key ∈ keys, (stated overrides).lookup key = none →
    exported? environment key = exported? environment' key
  entries : ∀ key, (stated overrides).lookup key = none →
    (key ∈ keys → exported? environment key = none) → file.lookup key = file'.lookup key

theorem AgreeInSight.provided_eq (agree : AgreeInSight overrides environment environment' file file') :
    provided overrides environment file = provided overrides environment' file' := by
  funext key
  unfold provided
  cases stated : (stated overrides).lookup key with
  | some value => rfl
  | none =>
    rw [Option.none_or, Option.none_or]
    by_cases known : key ∈ keys
    · rw [if_pos known, if_pos known, ← agree.exports key known stated]
      cases exported : exported? environment key with
      | some value => rfl
      | none => exact agree.entries key stated fun _ => exported
    · rw [if_neg known, if_neg known]
      exact agree.entries key stated fun member => absurd member known

end Outcomes

/-- **Settings are settled key by key.** With the settings file read, loading succeeds exactly if every
key that some source provides is a setting and has a value that it may have, and the settings are these
values, or their defaults. Otherwise the first refused setting is named, or else the first unknown key,
those of the file before those of the overrides; but if a key is no proper text, none is named. What a
source provides behind another changes nothing of this, unless it adds an unknown key to the file, which
may then be named in the place of another unknown key. -/
theorem precedence_per_key {files : Files.Store} {path : Option Files.Path} {overrides file : Fields}
    {environment : List (String × String)} (distinct : (overrides.map Prod.fst).Nodup)
    (read : loadFile files path = .ok file) :
    (∀ s, load files path overrides environment = .ok s ↔
      (∀ key, (provided overrides environment file key).isSome → key ∈ keys) ∧
        Validated (provided overrides environment file) s) ∧
    (∀ fault, load files path overrides environment = .error fault →
      ((∀ key, (provided overrides environment file key).isSome → Text.isWellFormed key) →
        ∃ key, fault.key? = some key ∧
          firstRefused (provided overrides environment file) (firstUnknown overrides file) = some key) ∧
      ((∃ key, (provided overrides environment file key).isSome ∧ ¬Text.isWellFormed key) →
        fault.key? = some "")) ∧
    ∀ files' path' environment' file', loadFile files' path' = .ok file' →
      AgreeInSight overrides environment environment' file file' →
      (∀ s, load files path overrides environment = .ok s ↔
        load files' path' overrides environment' = .ok s) ∧
      ∀ fault fault', load files path overrides environment = .error fault →
        load files' path' overrides environment' = .error fault' →
        fault.key? = fault'.key? ∨
          firstUnknown overrides file ≠ firstUnknown overrides file' ∧
            fault.key? = firstUnknown overrides file ∧ fault'.key? = firstUnknown overrides file' := by
  have loaded : ∀ {files path file} (environment : List (String × String)),
      loadFile files path = .ok file →
        load files path overrides environment = resolve overrides environment file := by
    intro files path file environment read
    rw [load, read]
  rw [loaded environment read]
  refine ⟨fun s => resolve_eq_ok_iff distinct, fun fault failed => ?_, ?_⟩
  · have outcome := outcome_resolve environment file distinct
    rw [failed] at outcome
    cases outcome with
    | refused formed first named =>
      exact ⟨fun _ => ⟨_, named, first⟩,
        fun ⟨key, held, improper⟩ => absurd (formed key held) improper⟩
    | illFormed held improper unnamed =>
      exact ⟨fun formed => absurd (formed _ held) improper, fun _ => unnamed⟩
  · intro files' path' environment' file' read' agree
    rw [loaded environment' read']
    have outcome := outcome_resolve environment file distinct
    have outcome' := outcome_resolve environment' file' distinct
    refine ⟨fun s => ?_, fun fault fault' failed failed' => ?_⟩
    · rw [resolve_eq_ok_iff distinct, resolve_eq_ok_iff distinct, agree.provided_eq]
    · rw [failed, agree.provided_eq] at outcome
      rw [failed'] at outcome'
      exact outcome.key_eq outcome'

/-- A working directory with a settings file in it. -/
def directoryWith (octets : List UInt8) : Files.Store :=
  ⟨.root, [(Files.Place.root.inside "apibreak.json", .file octets)]⟩

/-- The text `{"verbosity": null}`. -/
def nullVerbosity : List UInt8 := [
  0x7b, 0x22, 0x76, 0x65, 0x72, 0x62, 0x6f, 0x73, 0x69, 0x74, 0x79, 0x22, 0x3a, 0x20, 0x6e, 0x75,
  0x6c, 0x6c, 0x7d]

/-- What a file says about a key that is overridden is not looked at: with it and without it, the
settings are the same. -/
theorem precedence_per_key_null_behind_override :
    load (directoryWith nullVerbosity) none [("verbosity", .int 2)] [] = .ok { verbosity := 2 } ∧
      load ⟨.root, []⟩ none [("verbosity", .int 2)] [] = .ok { verbosity := 2 } := by
  have read : loadFile (directoryWith nullVerbosity) none = .ok [("verbosity", .null)] := by rfl
  have read' : loadFile ⟨.root, []⟩ none = .ok [] := by rfl
  have distinct : (([("verbosity", .int 2)] : Fields).map Prod.fst).Nodup := by decide
  have other : ∀ (value : Json) key, key ≠ "verbosity" → [("verbosity", value)].lookup key = none :=
    fun value key different => (Json.lookup_cons_eq _ _ _ _).trans (if_neg different)
  have known : ∀ key,
      (provided [("verbosity", .int 2)] [] [("verbosity", .null)] key).isSome → key ∈ keys := by
    intro key held
    by_cases same : key = "verbosity"
    · exact same ▸ by decide
    · have stated : (stated [("verbosity", .int 2)]).lookup key = none := other (.int 2) key same
      rw [provided, stated, other .null key same] at held
      split at held <;> cases held
  have agree : AgreeInSight [("verbosity", .int 2)] [] [] [("verbosity", .null)] [] := by
    refine ⟨fun _ _ _ => rfl, fun key unstated _ => other .null key ?_⟩
    rintro rfl
    cases unstated
  obtain ⟨settled, _, shadowed⟩ := @precedence_per_key (directoryWith nullVerbosity) none
    [("verbosity", .int 2)] [("verbosity", .null)] [] distinct read
  have loaded : load (directoryWith nullVerbosity) none [("verbosity", .int 2)] [] =
      .ok { verbosity := 2 } := (settled _).mpr ⟨known, rfl, rfl, rfl⟩
  exact ⟨loaded, ((shadowed _ _ _ _ read' agree).1 _).mp loaded⟩

/-- The text `{"aaa": 5}`. -/
def unknownEntry : List UInt8 := [0x7b, 0x22, 0x61, 0x61, 0x61, 0x22, 0x3a, 0x20, 0x35, 0x7d]

/-- The text `{"\ud800": 1, "format": "xml"}`. -/
def illFormedEntry : List UInt8 := [
  0x7b, 0x22, 0x5c, 0x75, 0x64, 0x38, 0x30, 0x30, 0x22, 0x3a, 0x20, 0x31, 0x2c, 0x20, 0x22, 0x66,
  0x6f, 0x72, 0x6d, 0x61, 0x74, 0x22, 0x3a, 0x20, 0x22, 0x78, 0x6d, 0x6c, 0x22, 0x7d]

def unknownOverrides : Fields := [("zzz", .int 1), ("aaa", .int 1)]

/-- A key of the file that is overridden decides which key is named, since the keys of the file stand
first. And a key with a surrogate hides a format that is refused. -/
theorem shadowed_key_is_named :
    (∃ fault, load ⟨.root, []⟩ none unknownOverrides [] = .error fault ∧ fault.key? = some "zzz") ∧
    (∃ fault, load (directoryWith unknownEntry) none unknownOverrides [] = .error fault ∧
      fault.key? = some "aaa") ∧
    ∃ file fault, loadFile (directoryWith illFormedEntry) none = .ok file ∧
      refuses (provided [] [] file) "format" = true ∧
      load (directoryWith illFormedEntry) none [] [] = .error fault ∧ fault.key? = some "" :=
  ⟨⟨_, rfl, rfl⟩, ⟨_, rfl, rfl⟩, _, _, rfl, rfl, rfl, rfl⟩

end Settings

end ApiDelta
