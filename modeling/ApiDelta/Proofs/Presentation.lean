import ApiDelta.Proofs.FailedRuns
import ApiDelta.Proofs.SettingPrecedence
import ApiDelta.Proofs.Utf8RoundTrip

/-!
How a comparison is presented, and what it comes to. The options for the format, the place of the
report and the amount that is told decide what is said and where. The report is a function of the two
trees, the version and the format; it is the same in a file and on standard output; and the exit status
is that of the diagnosis and of one setting, which these options cannot reach. But they decide where the
texts are written, and a run is refused for a text that there are no octets for where it is written.
-/
namespace ApiDelta

namespace Files.Store

variable {store files : Store} {place : Place}

/-- A file is written only at a place that does not lead to the working directory. -/
theorem apart_of_write {content : List UInt8} (made : store.write place content = .ok files) :
    place.leadsTo files.working = false := by
  unfold write at made
  split at made
  · cases made
  · split at made
    · cases made
    · split at made
      · cases made
      · rename_i base _ _ _ vacant
        cases made
        rw [Bool.eq_false_iff]
        exact fun leads => vacant (if_pos leads)

theorem node?_put {node : Node} (apart : place.leadsTo store.working = false) :
    (store.put place node).node? place = some node := by
  have elsewhere : ¬place.leadsTo (store.put place node).working = true := by simpa [put] using apart
  rw [node?, if_neg elsewhere, put, List.find?_cons_of_pos (by simp)]
  rfl

end Files.Store

namespace CommandLine

variable {world : World} {common common' : Common} {arguments arguments' : DiffArguments}
variable {settings settings' : Settings}

/-! ## The one setting that counts -/

open Settings

theorem distinct_overrides (common : Common) (arguments : DiffArguments) :
    ((overrides common (.diff arguments)).map Prod.fst).Nodup := by
  show ["format", "fail_on_breaking", "verbosity"].Nodup
  decide

/-- The options override this setting by its own flag alone. -/
theorem stated_failOnBreaking (common : Common) (arguments : DiffArguments) :
    (stated (overrides common (.diff arguments))).lookup "fail_on_breaking" =
      if arguments.failOnBreaking then some (.bool true) else none := by
  obtain ⟨_, _, _, format, _, flag⟩ := arguments
  obtain ⟨_, verbosity, _⟩ := common
  cases flag <;> cases format <;> cases verbosity <;> rfl

/-- The settings of a run are what its sources provide. -/
theorem Governs.validated (governed : Governs world common (.diff arguments) settings) :
    ∃ file, loadFile world.files (common.config.map Files.Path.ofText) = .ok file ∧
      Validated (provided (overrides common (.diff arguments)) world.environment file) settings := by
  unfold Governs load at governed
  split at governed
  · cases governed
  · rename_i file read
    exact ⟨file, read, ((resolve_eq_ok_iff (distinct_overrides common arguments)).mp governed).2⟩

/-- With one settings file, one environment and one flag, this setting is the same. -/
theorem Governs.failOnBreaking_eq (governed : Governs world common (.diff arguments) settings)
    (governed' : Governs world common' (.diff arguments') settings')
    (config : common'.config = common.config)
    (flag : arguments'.failOnBreaking = arguments.failOnBreaking) :
    settings'.failOnBreaking = settings.failOnBreaking := by
  obtain ⟨file, read, valid⟩ := governed.validated
  obtain ⟨file', read', valid'⟩ := governed'.validated
  rw [config] at read'
  cases read.symm.trans read'
  have same : provided (overrides common' (.diff arguments')) world.environment file
      "fail_on_breaking" = provided (overrides common (.diff arguments)) world.environment file
        "fail_on_breaking" := by
    rw [provided, provided, stated_failOnBreaking, stated_failOnBreaking, flag]
  have settled := valid'.failOnBreaking
  rw [settle, same] at settled
  exact Schema.Checked.sound.inj (settled.symm.trans valid.failOnBreaking)

/-! ## Comparisons that are ready -/

/-- The report on the step from one tree to another, if both can be flattened: nothing but the trees, the
version and the format goes into it. -/
def report? (format : Format) (old new : Tree) (version : Version) : Option String :=
  match Snapshot.ofTree? old, Snapshot.ofTree? new with
  | .ok s, .ok s' => some (content { format := format } (.of old new s s' version))
  | _, _ => none

/-- What an option or argument names holds a tree that can be flattened. -/
def Names (world : World) (name : String) (tree : Tree) : Prop :=
  ∃ source s, sourceOf world name = .ok source ∧ source.Holds world.files tree s

/-- A file can be written where one is asked for, if any. -/
def Writable (world : World) (output : Option String) : Prop :=
  ∀ name, output = some name →
    ∃ place files, placeOf world name = .ok place ∧ world.files.write place [] = .ok files

/-- There are settings, two trees, a version, and a place for the report. -/
structure Ready (world : World) (common : Common) (arguments : DiffArguments)
    (settings : Settings) (old new : Tree) (version : Version) : Prop where
  governed : Governs world common (.diff arguments) settings
  oldNamed : Names world arguments.old old
  newNamed : Names world arguments.new new
  resolves : Release.Resolves old.crateVersion arguments.current version
  writable : Writable world arguments.output

/-- There are octets for every text on the way of a report: for the report itself, in the encoding of
standard output unless the run is quiet, or in that of a file, and in the latter case also for the line
that tells where the file is. -/
def Carried (world : World) (quiet : Bool) : Option String → String → Prop
  | none, text => quiet = false → world.stdout.refusal? text = none
  | some name, text => Text.isWellFormed text ∧ ∀ place, placeOf world name = .ok place →
      quiet = false → world.stdout.refusal? (reportLine place) = none

/-- How a comparison is delivered. A file has the octets of the report, which are read as its
characters, and without a file, standard output has the report itself unless it is to be quiet. -/
structure Delivers (world : World) (quiet : Bool) (output : Option String) (exit : Nat) (text : String)
    (o : Outcome) : Prop where
  exit : o.exit = exit
  printed : output = none → o.stdout = if quiet then "" else text
  written : ∀ name, output = some name → ∃ place octets, placeOf world name = .ok place ∧
    o.files.node? place = some (.file octets) ∧ Text.Utf8.encode text = .ok octets ∧
      Text.Utf8.decode octets = .ok ((Text.codePoints text).map Char.ofNat)

section Delivery

variable {heard : List Line} {quiet : Bool} {output : Option String} {c : Release.Comparison}

/-- Where a file can be written, a report is delivered if it is carried, and refused if it is not. -/
theorem deliver_cases (ascii : Text.isAscii c.report.nextVersion) (writable : Writable world output) :
    Carried world quiet output (content settings c) ∧
        Delivers world quiet output (verdict settings c) (content settings c)
          (deliver world settings quiet output heard c) ∨
      ¬Carried world quiet output (content settings c) ∧
        (deliver world settings quiet output heard c).exit = exitRefused := by
  have ends := deliver_ends world settings quiet output heard c ascii
  generalize deliver world settings quiet output heard c = o at ends ⊢
  cases ends with
  | shown taken => exact .inl ⟨taken, rfl, fun _ => rfl, nofun⟩
  | unshown aloud refused =>
    refine .inr ⟨fun carried => ?_, rfl⟩
    cases refused.symm.trans (carried aloud)
  | nameless nameless =>
    obtain ⟨_, _, named, _⟩ := writable _ rfl
    cases nameless.symm.trans named
  | barred named barred =>
    obtain ⟨_, _, named', made⟩ := writable _ rfl
    cases named.symm.trans named'
    cases barred.symm.trans made
  | spoilt named made unencodable =>
    refine .inr ⟨fun carried => ?_, rfl⟩
    obtain ⟨_, encoded, _⟩ := Text.Utf8.encode_decode carried.1
    cases unencodable.symm.trans encoded
  | untold named made encoded aloud refused =>
    refine .inr ⟨fun carried => ?_, rfl⟩
    cases refused.symm.trans (carried.2 _ named aloud)
  | @written name place files octets said named made encoded taken =>
    refine .inl ⟨⟨Text.Utf8.isWellFormed_of_encode encoded, ?_⟩, rfl, nofun, ?_⟩
    · intro other named'
      cases named.symm.trans named'
      exact taken
    · rintro _ ⟨⟩
      exact ⟨place, octets, named, Files.Store.node?_put (Files.Store.apart_of_write made), encoded,
        Text.Utf8.decode_of_encode encoded⟩

theorem writable_of_exitOk (ascii : Text.isAscii c.report.nextVersion)
    (ended : (deliver world settings quiet output heard c).exit = exitOk) :
    Writable world output := by
  have ends := deliver_ends world settings quiet output heard c ascii
  generalize deliver world settings quiet output heard c = o at ended ends
  cases ends with
  | shown | unshown => exact nofun
  | nameless | barred | spoilt | untold => cases ended
  | written named made =>
    rintro _ ⟨⟩
    exact ⟨_, _, named, made⟩

end Delivery

/-- No other setting than the format goes into a report. -/
theorem report?_eq (settings : Settings) {old new : Tree} {s s' : Snapshot} (version : Version)
    (flattened : Snapshot.ofTree? old = .ok s) (flattened' : Snapshot.ofTree? new = .ok s') :
    report? settings.format old new version =
      some (content settings (.of old new s s' version)) := by
  rw [report?, flattened, flattened']
  rfl

/-- A comparison that ends with status 0 is ready, and its report is carried. -/
theorem ready_of_exitOk (ended : (perform world common (.diff arguments)).exit = exitOk) :
    ∃ settings old new version text, Ready world common arguments settings old new version ∧
      report? settings.format old new version = some text ∧
      Carried world common.quiet arguments.output text := by
  rcases perform_cases world common (.diff arguments) with ⟨_, complains⟩ | ⟨settings, governed, same⟩
  · cases complains.exit.symm.trans ended
  · rw [same, runCommand] at ended
    have ends := runDiff_ends world settings common.quiet arguments
    generalize runDiff world settings common.quiet arguments = o at ended ends
    cases ends with
    | unsound => cases ended
    | compared compares =>
      have ascii := compares.isAscii
      obtain ⟨_, _, oldNamed, newNamed, compared⟩ := compares
      obtain ⟨old, new, s, s', version, held, held', resolves, rfl⟩ :=
        Release.diff_eq_ok_iff.mp compared
      have writable := writable_of_exitOk ascii ended
      refine ⟨settings, old, new, version, _, ⟨governed, ⟨_, s, oldNamed, held⟩,
        ⟨_, s', newNamed, held'⟩, resolves, writable⟩,
        report?_eq settings version held.flattened held'.flattened, ?_⟩
      rcases deliver_cases ascii writable with ⟨carried, _⟩ | ⟨_, refused⟩
      · exact carried
      · cases refused.symm.trans ended

section Presented

variable {old new old' new' : Tree} {version version' : Version}

/-- The exit status that a diagnosis calls for. -/
def verdictOn (d : Diagnosis) (failOnBreaking : Bool) : Nat :=
  if d.isBreaking && failOnBreaking then exitBreaking else exitOk

theorem perform_of_ready (ready : Ready world common arguments settings old new version) :
    ∃ s s' text, Snapshot.ofTree? old = .ok s ∧ Snapshot.ofTree? new = .ok s' ∧
      report? settings.format old new version = some text ∧
      (Carried world common.quiet arguments.output text ∧
          Delivers world common.quiet arguments.output
            (verdictOn (Diagnosis.between s s') settings.failOnBreaking) text
            (perform world common (.diff arguments)) ∨
        ¬Carried world common.quiet arguments.output text ∧
          (perform world common (.diff arguments)).exit = exitRefused) := by
  obtain ⟨governed, ⟨source, s, oldNamed, held⟩, ⟨source', s', newNamed, held'⟩, resolves,
    writable⟩ := ready
  have compares : Compares world arguments (.of old new s s' version) := ⟨_, _, oldNamed, newNamed,
    Release.diff_eq_ok_iff.mpr ⟨_, _, _, _, _, held, held', resolves, rfl⟩⟩
  obtain ⟨heard, same⟩ := compares.runDiff_eq settings common.quiet
  refine ⟨s, s', _, held.flattened, held'.flattened,
    report?_eq settings version held.flattened held'.flattened, ?_⟩
  rw [governed.perform_eq, runCommand, same]
  exact deliver_cases compares.isAscii writable

/-- What two comparisons are about is the same if it goes by the same names. -/
theorem Ready.about_eq (ready : Ready world common arguments settings old new version)
    (ready' : Ready world common' arguments' settings' old' new' version')
    (olds : arguments'.old = arguments.old) (news : arguments'.new = arguments.new)
    (currents : arguments'.current = arguments.current) :
    old' = old ∧ new' = new ∧ version' = version := by
  obtain ⟨source, s, oldNamed, held⟩ := ready.oldNamed
  obtain ⟨_, s', newNamed, held'⟩ := ready.newNamed
  obtain ⟨_, _, oldNamed', again⟩ := ready'.oldNamed
  obtain ⟨_, _, newNamed', again'⟩ := ready'.newNamed
  rw [olds, oldNamed] at oldNamed'
  rw [news, newNamed] at newNamed'
  cases oldNamed'
  cases newNamed'
  obtain ⟨rfl, rfl⟩ := again.unique held
  have resolved := Release.resolve_eq_ok_iff.mpr ready.resolves
  have resolved' := Release.resolve_eq_ok_iff.mpr ready'.resolves
  rw [currents, resolved] at resolved'
  cases resolved'
  exact ⟨rfl, (again'.unique held').1, rfl⟩

/-- A comparison that is ready also is without a file, and without being quiet. -/
theorem Ready.aloud (ready : Ready world common arguments settings old new version) :
    Ready world { common with quiet := false } { arguments with output := none } settings old new
      version :=
  ⟨ready.governed, ready.oldNamed, ready.newNamed, ready.resolves, fun _ => nofun⟩

end Presented

/-- **Presentation only matters to encoding.** A comparison that ends with status 0 is ready, and its
report is carried. One that is ready has a report that is a function of the two trees, the version and
the format. If the report is carried, the comparison ends with the status that its diagnosis and one
setting call for, and delivers the report: as it is, or as the octets of a file. If not, it is refused.
The same comparison without a file, and not quiet, prints this report, if standard output takes it. And
whatever is said about the format, the file and the amount that is told, the report is the same in the
same format, and the exit status is the same as long as both reports are carried. -/
theorem presentation_matters_only_to_encoding {words : List String}
    (asked : request programVersion words = .ok (.run common (.diff arguments))) :
    ((run world words).exit = exitOk → ∃ settings old new version text,
      Ready world common arguments settings old new version ∧
        report? settings.format old new version = some text ∧
        Carried world common.quiet arguments.output text) ∧
    ∀ settings old new version, Ready world common arguments settings old new version →
      ∃ s s' text, Snapshot.ofTree? old = .ok s ∧ Snapshot.ofTree? new = .ok s' ∧
        report? settings.format old new version = some text ∧
        (Carried world common.quiet arguments.output text →
          Delivers world common.quiet arguments.output
            (verdictOn (Diagnosis.between s s') settings.failOnBreaking) text (run world words)) ∧
        (¬Carried world common.quiet arguments.output text → (run world words).exit = exitRefused) ∧
        (∀ words', request programVersion words' =
            .ok (.run { common with quiet := false } (.diff { arguments with output := none })) →
          world.stdout.refusal? text = none → (run world words').stdout = text) ∧
        ∀ quiet verbosity format output words' settings' old' new' version',
          request programVersion words' =
            .ok (.run { common with quiet := quiet, verbosity := verbosity }
              (.diff { arguments with format := format, output := output })) →
          Ready world { common with quiet := quiet, verbosity := verbosity }
            { arguments with format := format, output := output } settings' old' new' version' →
          ∃ text', report? settings'.format old' new' version' = some text' ∧
            (settings'.format = settings.format → text' = text) ∧
            (Carried world common.quiet arguments.output text → Carried world quiet output text' →
              (run world words').exit = (run world words).exit) := by
  rw [run_eq_perform asked]
  refine ⟨ready_of_exitOk, fun settings old new version ready => ?_⟩
  obtain ⟨s, s', text, flattened, flattened', reported, ends⟩ := perform_of_ready ready
  have delivers (carried : Carried world common.quiet arguments.output text) :=
    (ends.resolve_right fun refused => refused.1 carried).2
  refine ⟨s, s', text, flattened, flattened', reported, delivers, ?_, ?_, ?_⟩
  · intro spoilt
    exact (ends.resolve_left fun carried => spoilt carried.1).2
  · intro words' asked' taken
    obtain ⟨_, _, _, _, _, reported', ends'⟩ := perform_of_ready ready.aloud
    cases reported.symm.trans reported'
    have delivers' := (ends'.resolve_right fun refused => refused.1 fun _ => taken).2
    rw [run_eq_perform asked', delivers'.printed rfl]
    rfl
  · intro quiet verbosity format output words' settings' old' new' version' asked' ready'
    obtain ⟨rfl, rfl, rfl⟩ := ready.about_eq ready' rfl rfl rfl
    obtain ⟨_, _, text', again, again', reported', ends'⟩ := perform_of_ready ready'
    cases flattened.symm.trans again
    cases flattened'.symm.trans again'
    refine ⟨text', reported', fun same => ?_, fun carried carried' => ?_⟩
    · rw [same, reported] at reported'
      exact (Option.some.inj reported').symm
    · have setting := ready.governed.failOnBreaking_eq ready'.governed rfl rfl
      have delivers' := (ends'.resolve_right fun refused => refused.1 carried').2
      rw [run_eq_perform asked', delivers'.exit, (delivers carried).exit, setting]

/-! ## A report in a file -/

/-- The text
`{"index":{"0":{"kind":"module","name":"l","items":[1]},"1":{"kind":"struct","name":"S"}}}`. -/
def structOctets : List UInt8 := [
  0x7b, 0x22, 0x69, 0x6e, 0x64, 0x65, 0x78, 0x22, 0x3a, 0x7b, 0x22, 0x30, 0x22, 0x3a, 0x7b, 0x22,
  0x6b, 0x69, 0x6e, 0x64, 0x22, 0x3a, 0x22, 0x6d, 0x6f, 0x64, 0x75, 0x6c, 0x65, 0x22, 0x2c, 0x22,
  0x6e, 0x61, 0x6d, 0x65, 0x22, 0x3a, 0x22, 0x6c, 0x22, 0x2c, 0x22, 0x69, 0x74, 0x65, 0x6d, 0x73,
  0x22, 0x3a, 0x5b, 0x31, 0x5d, 0x7d, 0x2c, 0x22, 0x31, 0x22, 0x3a, 0x7b, 0x22, 0x6b, 0x69, 0x6e,
  0x64, 0x22, 0x3a, 0x22, 0x73, 0x74, 0x72, 0x75, 0x63, 0x74, 0x22, 0x2c, 0x22, 0x6e, 0x61, 0x6d,
  0x65, 0x22, 0x3a, 0x22, 0x53, 0x22, 0x7d, 0x7d, 0x7d]

/-- A crate with a struct, and the same crate without it. -/
def lostStructWorld : World where
  files := ⟨.root, [(⟨["o"]⟩, .file structOctets), (⟨["n"]⟩, .file bareOctets)]⟩
  environment := []
  stdout := Text.Utf8.charset

def structTree : Tree where
  index := [
    (0, { declaration := .module { name := "l", items := [1] } }),
    (1, { declaration := .struct { name := "S" } })]
  root := { name := "l", items := [1] }
  rooted := rfl

def lostStructArguments : DiffArguments where
  old := "o"
  new := "n"
  currentVersion := some "1.0.0"
  format := none
  output := some "out/r"
  failOnBreaking := true

def lostStructWords : List String :=
  ["diff", "--from", "o", "--to", "n", "--current-version", "1.0.0", "--fail-on-breaking"]

def lostStructReport : String :=
  "- S (struct)\n\nNext version is: 2.0.0\n"

theorem structTree_flattened : ∃ s item, Snapshot.ofTree? structTree = .ok s ∧
    s.entries = [(⟨["S"], .struct⟩, item)] ∧ item.isMember = false :=
  ⟨_, _, Tree.ofTree?_eq_ok_iff.mpr ⟨_, _, .answer (by decide) rfl .done, rfl⟩, rfl, rfl⟩

theorem lostStruct_reported : ∃ s, Snapshot.ofTree? structTree = .ok s ∧
    (Diagnosis.between s .empty).isBreaking = true ∧
    report? .text structTree bareTree ⟨1, 0, 0, none, none⟩ = some lostStructReport := by
  obtain ⟨s, item, flattened, entries, free⟩ := structTree_flattened
  have diagnosis := (Diagnosis.between_single entries free).2
  refine ⟨s, flattened, by rw [diagnosis]; rfl, ?_⟩
  have text : content {} (.of structTree bareTree s .empty ⟨1, 0, 0, none, none⟩) =
      (Diagnosis.between s .empty).text
        (Version.next ⟨1, 0, 0, none, none⟩ (Diagnosis.between s .empty)) := rfl
  have next : Version.next ⟨1, 0, 0, none, none⟩ ⟨[.removed ⟨["S"], .struct⟩ item]⟩ =
      ⟨2, 0, 0, none, none⟩ := by rfl
  have lines : (Diagnosis.mk [.removed ⟨["S"], .struct⟩ item]).text ⟨2, 0, 0, none, none⟩ =
      lostStructReport := by rfl
  have reported : report? .text structTree bareTree ⟨1, 0, 0, none, none⟩ = some _ :=
    report?_eq {} _ flattened bareTree_flattened
  rw [reported, text, diagnosis, next, lines]

theorem lostStruct_ready : Ready lostStructWorld ⟨true, none, none⟩ lostStructArguments
    { failOnBreaking := true } structTree bareTree ⟨1, 0, 0, none, none⟩ := by
  obtain ⟨s, flattened, _, _⟩ := lostStruct_reported
  refine ⟨rfl, ⟨.file ⟨.root, ["o"]⟩, s, rfl, ⟨rfl, flattened⟩⟩,
    ⟨.file ⟨.root, ["n"]⟩, .empty, rfl, ⟨rfl, bareTree_flattened⟩⟩, .written (by decide), ?_⟩
  rintro _ ⟨⟩
  exact ⟨⟨["out", "r"]⟩, _, rfl, rfl⟩

/-- Told to count breaking changes as a failure, the program ends with status 1 and leaves the report in
a file, however quiet it is. It prints the same report if it is given no file. -/
theorem presentation_matters_only_to_encoding_lost_struct :
    (run lostStructWorld (lostStructWords ++ ["--quiet", "--output", "out/r"])).exit = exitBreaking ∧
      (∃ octets, Text.Utf8.encode lostStructReport = .ok octets ∧
        (run lostStructWorld (lostStructWords ++ ["--quiet", "--output", "out/r"])).files.node?
          ⟨["out", "r"]⟩ = some (.file octets)) ∧
      (run lostStructWorld lostStructWords).stdout = lostStructReport := by
  have asked : request programVersion (lostStructWords ++ ["--quiet", "--output", "out/r"]) =
      .ok (.run ⟨true, none, none⟩ (.diff lostStructArguments)) := by rfl
  have aloud : request programVersion lostStructWords =
      .ok (.run ⟨false, none, none⟩ (.diff { lostStructArguments with output := none })) := by rfl
  have formed : Text.isWellFormed lostStructReport := by decide
  obtain ⟨s, flattened, breaks, reported⟩ := lostStruct_reported
  obtain ⟨_, _, text, again, again', reported', delivers, _, printed, _⟩ :=
    (presentation_matters_only_to_encoding asked).2 _ _ _ _ lostStruct_ready
  cases reported.symm.trans reported'
  cases flattened.symm.trans again
  cases bareTree_flattened.symm.trans again'
  have delivers := delivers ⟨formed, fun _ _ => by simp⟩
  obtain ⟨_, octets, ⟨⟩, kept, encoded, _⟩ := delivers.written _ rfl
  refine ⟨delivers.exit.trans ?_, ⟨octets, encoded, kept⟩,
    printed _ aloud (Text.Utf8.unencodable?_isSurrogate_eq_none_iff.mpr formed)⟩
  rw [verdictOn, breaks]
  rfl

/-! ## A report that cannot be encoded -/

def quietWords : List String :=
  ["diff", "--quiet", "--from", "o", "--to", "n", "--current-version", "1.0.0"]

/-- A comparison that succeeds while it is quiet is refused when it is told to write its report to a
file, which can be written. -/
theorem output_file_changes_the_verdict :
    (run surrogateWorld quietWords).exit = exitOk ∧
      (run surrogateWorld (quietWords ++ ["--output", "out/r"])).exit = exitRefused := by
  have asked : request programVersion quietWords =
      .ok (.run ⟨true, none, none⟩ (.diff { surrogateArguments with output := none })) := by rfl
  have asked' : request programVersion (quietWords ++ ["--output", "out/r"]) =
      .ok (.run ⟨true, none, none⟩ (.diff surrogateArguments)) := by rfl
  have governed : Governs surrogateWorld ⟨true, none, none⟩
      (.diff { surrogateArguments with output := none }) {} := rfl
  obtain ⟨c, _, compares, _⟩ := surrogateWorld_compares none
  obtain ⟨heard, same⟩ := compares.runDiff_eq {} true
  have lenient : verdict {} c = exitOk := by rw [verdict, Bool.and_false]; rfl
  refine ⟨?_, ?_⟩
  · rw [run_eq_perform asked, governed.perform_eq, runCommand, same]
    exact lenient
  · rw [run_eq_perform asked']
    exact (perform_spoilt (surrogateWorld_spoils true)).exit

end CommandLine

end ApiDelta
