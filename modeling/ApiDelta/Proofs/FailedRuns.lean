import ApiDelta.CommandLine.Run
import ApiDelta.Proofs.EntryPoints
import ApiDelta.Proofs.VersionTexts

/-!
Runs that are refused. A run looks at its settings, its trees and its version before it writes anything,
so where one of them is unsound, the run complains, prints nothing, and leaves the files as they were.
What comes too late for that is a text that there are no octets for: a report turns out to be one when
the file for it is there, the name of that file when the report is in it, and the name of a crate when
the line before it is printed.
-/
namespace ApiDelta

/-! ## Printing -/

namespace Text

theorem isAscii_append {text other : String} (ascii : isAscii text) (ascii' : isAscii other) :
    isAscii (text ++ other) := by
  rw [isAscii] at ascii ascii' ⊢
  rw [String.toList_append, List.all_append, ascii, ascii']
  rfl

namespace Charset

variable {charset : Charset} {text : String} {refusal : Unencodable}

theorem write_cons_of_taken (taken : charset.refusal? text = none) (rest : List String) :
    charset.write (text :: rest) = (text ++ (charset.write rest).1, (charset.write rest).2) := by
  rw [write, taken]

theorem write_cons_of_refused (refused : charset.refusal? text = some refusal) (rest : List String) :
    charset.write (text :: rest) = ("", some refusal) := by
  rw [write, refused]

theorem write_cons_of_isAscii (ascii : isAscii text) (rest : List String) :
    charset.write (text :: rest) = (text ++ (charset.write rest).1, (charset.write rest).2) :=
  write_cons_of_taken (charset.takes_ascii text ascii) rest

end Charset

end Text

namespace Version

/-- A proposed version has no labels, and is written in digits and points. -/
theorem isAscii_next (v : Version) (d : Diagnosis) : Text.isAscii (v.next d).text := by
  have unlabelled : (v.next d).pre = none ∧ (v.next d).build = none := by
    unfold next
    cases d.bump <;> exact ⟨rfl, rfl⟩
  have labelled : (v.next d).IsLabelled := ⟨by simp [unlabelled], by simp [unlabelled]⟩
  rw [Text.isAscii, List.all_eq_true, toList_text labelled]
  intro c member
  have bounds := (written_sound labelled).bounds member
  rw [decide_eq_true_iff]
  omega

end Version

namespace CommandLine

section Printing

variable {world : World} {quiet : Bool} {exit : Nat} {files : Files.Store} {heard : List Line}
variable {first middle last : String} {refusal : Text.Unencodable}

theorem isAscii_lineEnd : Text.isAscii "\n" := by
  decide

theorem isAscii_writtenLine : Text.isAscii writtenLine := by
  decide

theorem isAscii_soundLine : Text.isAscii soundLine := by
  decide

/-- Three lines are printed if the middle one is taken and the others are ASCII. -/
theorem write_lines_of_taken (ascii : Text.isAscii first) (ascii' : Text.isAscii last)
    (taken : world.stdout.refusal? middle = none) :
    (world.stdout.write (lines [first, middle, last])).2 = none := by
  simp only [lines, List.flatMap_cons, List.flatMap_nil, List.cons_append, List.nil_append,
    Text.Charset.write_cons_of_isAscii, ascii, ascii', isAscii_lineEnd,
    Text.Charset.write_cons_of_taken taken]
  rfl

/-- Where the middle one is refused, the first one is printed by then. -/
theorem write_lines_of_refused (ascii : Text.isAscii first)
    (refused : world.stdout.refusal? middle = some refusal) :
    world.stdout.write (lines [first, middle, last]) = (first ++ "\n", some refusal) := by
  simp only [lines, List.flatMap_cons, List.cons_append, List.nil_append,
    Text.Charset.write_cons_of_isAscii, ascii, isAscii_lineEnd,
    Text.Charset.write_cons_of_refused refused, String.append_empty]

theorem printing_of_taken {texts : List String}
    (taken : quiet = false → (world.stdout.write texts).2 = none) :
    printing world quiet exit files heard texts =
      { exit := exit
        stdout := if quiet then "" else (world.stdout.write texts).1
        stderr := heard
        files := files } := by
  cases quiet with
  | true => rfl
  | false =>
    have whole : world.stdout.write texts = ((world.stdout.write texts).1, none) :=
      Prod.ext rfl (taken rfl)
    rw [printing, if_neg Bool.false_ne_true, whole]
    rfl

theorem printing_of_refused {texts : List String} {said : String}
    (refused : world.stdout.write texts = (said, some refusal)) :
    printing world false exit files heard texts =
      { failed files heard (.unencodable refusal) with stdout := said } := by
  rw [printing, if_neg Bool.false_ne_true, refused]

end Printing

/-! ## What a run needs -/

/-- The settings of a run. -/
def Governs (world : World) (common : Common) (command : Command) (settings : Settings) : Prop :=
  Settings.load world.files (common.config.map Files.Path.ofText) (overrides common command)
    world.environment = .ok settings

/-- A run has one record of settings at most. -/
theorem Governs.unique {world : World} {common : Common} {command : Command}
    {settings settings' : Settings} (governed : Governs world common command settings)
    (governed' : Governs world common command settings') : settings = settings' :=
  Except.ok.inj (governed.symm.trans governed')

/-- Everything that a command looks at is sound. -/
inductive Sound (world : World) : Command → Prop where
  | diff {arguments : DiffArguments} {old new : Source} {oldTree newTree : Tree} {s s' : Snapshot}
      {version : Version} (oldNamed : sourceOf world arguments.old = .ok old)
      (newNamed : sourceOf world arguments.new = .ok new) (held : old.Holds world.files oldTree s)
      (held' : new.Holds world.files newTree s')
      (resolves : Release.Resolves oldTree.crateVersion arguments.current version) :
      Sound world (.diff arguments)
  | check {name : String} {source : Source} {tree : Tree} {s : Snapshot}
      (named : sourceOf world name = .ok source) (held : source.Holds world.files tree s) :
      Sound world (.check name)

/-- A comparison that is asked for can be made, and yields this. -/
def Compares (world : World) (arguments : DiffArguments) (c : Release.Comparison) : Prop :=
  ∃ old new, sourceOf world arguments.old = .ok old ∧ sourceOf world arguments.new = .ok new ∧
    (Release.diff world.files old new arguments.current).outcome = .ok c

/-- A comparison has been made, and a file for the report on it. -/
structure Opens (world : World) (common : Common) (arguments : DiffArguments) (settings : Settings)
    (c : Release.Comparison) (place : Files.Place) (files : Files.Store) : Prop where
  governed : Governs world common (.diff arguments) settings
  compares : Compares world arguments c
  named : ∃ name, arguments.output = some name ∧ placeOf world name = .ok place
  made : world.files.write place [] = .ok files

/-- There are no octets for a text that is to be written after something else: the report in its file,
the name of that file after the first line about it, or the name of a crate after the first line about
it. The files are those at that point, and the text is what has been printed by then. -/
inductive Spoils (world : World) (common : Common) : Command → Files.Store → String → Prop where
  | report {arguments : DiffArguments} {settings : Settings} {c : Release.Comparison}
      {place : Files.Place} {files : Files.Store} {refusal : Text.Unencodable}
      (opened : Opens world common arguments settings c place files)
      (unencodable : Text.Utf8.encode (content settings c) = .error refusal) :
      Spoils world common (.diff arguments) files ""
  | place {arguments : DiffArguments} {settings : Settings} {c : Release.Comparison}
      {place : Files.Place} {files : Files.Store} {octets : List UInt8} {refusal : Text.Unencodable}
      (opened : Opens world common arguments settings c place files)
      (encoded : Text.Utf8.encode (content settings c) = .ok octets) (aloud : common.quiet = false)
      (refused : world.stdout.refusal? (reportLine place) = some refusal) :
      Spoils world common (.diff arguments) (files.put place (.file octets)) (writtenLine ++ "\n")
  | crate {name : String} {settings : Settings} {source : Source} {tree : Tree} {s : Snapshot}
      {refusal : Text.Unencodable} (governed : Governs world common (.check name) settings)
      (named : sourceOf world name = .ok source) (held : source.Holds world.files tree s)
      (aloud : common.quiet = false)
      (refused : world.stdout.refusal? (crateLine tree.crateName) = some refusal) :
      Spoils world common (.check name) world.files (soundLine ++ "\n")

/-- What is left of a refused run: a complaint, these files, and what had been printed. -/
structure Complains (files : Files.Store) (printed : String) (o : Outcome) : Prop where
  exit : o.exit = exitRefused
  stdout : o.stdout = printed
  stderr : ∃ text details, ⟨"Error: " ++ text, details⟩ ∈ o.stderr
  files : o.files = files

/-! ## Steps of a run -/

section Steps

variable {world : World} {files : Files.Store} {heard : List Line} {settings : Settings} {quiet : Bool}
variable {common : Common} {arguments : DiffArguments} {c : Release.Comparison}

theorem complains_of_failed (files : Files.Store) (heard : List Line) (failure : Failure)
    (said : String) : Complains files said { failed files heard failure with stdout := said } :=
  ⟨rfl, rfl, ⟨_, _, List.mem_append_right heard List.mem_cons_self⟩, rfl⟩

/-- How the delivery of a report may end. -/
inductive DeliveryEnds (world : World) (settings : Settings) (quiet : Bool) (heard : List Line)
    (c : Release.Comparison) : Option String → Outcome → Prop where
  | shown (taken : quiet = false → world.stdout.refusal? (content settings c) = none) :
      DeliveryEnds world settings quiet heard c none
        { exit := verdict settings c
          stdout := if quiet then "" else content settings c
          stderr := heard
          files := world.files }
  | unshown {refusal : Text.Unencodable} (aloud : quiet = false)
      (refused : world.stdout.refusal? (content settings c) = some refusal) :
      DeliveryEnds world settings quiet heard c none
        (failed world.files heard (.unencodable refusal))
  | nameless {name : String} {failure : Failure} (nameless : placeOf world name = .error failure) :
      DeliveryEnds world settings quiet heard c (some name) (failed world.files heard failure)
  | barred {name : String} {place : Files.Place} {stopped : Files.Store.WriteTrouble}
      (named : placeOf world name = .ok place)
      (barred : world.files.write place [] = .error stopped) :
      DeliveryEnds world settings quiet heard c (some name)
        (broken stopped.store heard (writeTroubleText stopped))
  | spoilt {name : String} {place : Files.Place} {files : Files.Store} {refusal : Text.Unencodable}
      (named : placeOf world name = .ok place) (made : world.files.write place [] = .ok files)
      (unencodable : Text.Utf8.encode (content settings c) = .error refusal) :
      DeliveryEnds world settings quiet heard c (some name)
        (failed files heard (.unencodable refusal))
  | untold {name : String} {place : Files.Place} {files : Files.Store} {octets : List UInt8}
      {refusal : Text.Unencodable} (named : placeOf world name = .ok place)
      (made : world.files.write place [] = .ok files)
      (encoded : Text.Utf8.encode (content settings c) = .ok octets) (aloud : quiet = false)
      (refused : world.stdout.refusal? (reportLine place) = some refusal) :
      DeliveryEnds world settings quiet heard c (some name)
        { failed (files.put place (.file octets)) heard (.unencodable refusal) with
          stdout := writtenLine ++ "\n" }
  | written {name : String} {place : Files.Place} {files : Files.Store} {octets : List UInt8}
      {said : String} (named : placeOf world name = .ok place)
      (made : world.files.write place [] = .ok files)
      (encoded : Text.Utf8.encode (content settings c) = .ok octets)
      (taken : quiet = false → world.stdout.refusal? (reportLine place) = none) :
      DeliveryEnds world settings quiet heard c (some name)
        { exit := verdict settings c
          stdout := said
          stderr := heard
          files := files.put place (.file octets) }

/-- The report itself is printed in one piece. -/
theorem deliver_none_ends (world : World) (settings : Settings) (quiet : Bool) (heard : List Line)
    (c : Release.Comparison) :
    DeliveryEnds world settings quiet heard c none (deliver world settings quiet none heard c) := by
  rw [deliver]
  cases taken : world.stdout.refusal? (content settings c) with
  | none =>
    have whole := Text.Charset.write_cons_of_taken taken []
    rw [printing_of_taken fun _ => by rw [whole]; rfl, whole]
    simp only [Text.Charset.write, String.append_empty]
    exact .shown fun _ => taken
  | some refusal =>
    cases quiet with
    | true => exact .shown nofun
    | false =>
      rw [printing_of_refused (Text.Charset.write_cons_of_refused taken [])]
      exact .unshown rfl taken

theorem deliver_ends (world : World) (settings : Settings) (quiet : Bool) (output : Option String)
    (heard : List Line) (c : Release.Comparison) (ascii : Text.isAscii c.report.nextVersion) :
    DeliveryEnds world settings quiet heard c output
      (deliver world settings quiet output heard c) := by
  have last : Text.isAscii ("  Next version: " ++ c.report.nextVersion) :=
    Text.isAscii_append (by decide) ascii
  cases output with
  | none => exact deliver_none_ends world settings quiet heard c
  | some name =>
    simp only [deliver]
    split
    · exact .nameless (by assumption)
    · rename_i place named
      split
      · exact .barred named (by assumption)
      · rename_i files made
        split
        · exact .spoilt named made (by assumption)
        · rename_i octets encoded
          cases taken : world.stdout.refusal? (reportLine place) with
          | none =>
            rw [writtenLines,
              printing_of_taken fun _ => write_lines_of_taken isAscii_writtenLine last taken]
            exact .written named made encoded fun _ => taken
          | some refusal =>
            cases quiet with
            | true => exact .written named made encoded nofun
            | false =>
              rw [writtenLines, printing_of_refused (write_lines_of_refused isAscii_writtenLine taken)]
              exact .untold named made encoded rfl taken

/-- A report has a proposed version in it. -/
theorem Compares.isAscii (compares : Compares world arguments c) :
    Text.isAscii c.report.nextVersion := by
  obtain ⟨_, _, _, _, compared⟩ := compares
  obtain ⟨_, _, _, _, version, _, _, _, rfl⟩ := Release.diff_eq_ok_iff.mp compared
  exact version.isAscii_next _

/-- How the run of a comparison may end. -/
inductive DiffEnds (world : World) (settings : Settings) (quiet : Bool) (arguments : DiffArguments) :
    Outcome → Prop where
  | unsound {heard : List Line} {failure : Failure} (unsound : ∀ c, ¬Compares world arguments c) :
      DiffEnds world settings quiet arguments (failed world.files heard failure)
  | compared {heard : List Line} {c : Release.Comparison} (compares : Compares world arguments c) :
      DiffEnds world settings quiet arguments (deliver world settings quiet arguments.output heard c)

theorem runDiff_ends (world : World) (settings : Settings) (quiet : Bool) (arguments : DiffArguments) :
    DiffEnds world settings quiet arguments (runDiff world settings quiet arguments) := by
  unfold runDiff
  cases oldNamed : sourceOf world arguments.old with
  | error failure =>
    refine .unsound ?_
    rintro c ⟨_, _, named, _⟩
    cases oldNamed.symm.trans named
  | ok old =>
    cases newNamed : sourceOf world arguments.new with
    | error failure =>
      refine .unsound ?_
      rintro c ⟨_, _, _, named, _⟩
      cases newNamed.symm.trans named
    | ok new =>
      dsimp only
      split
      · rename_i failure failed
        refine .unsound ?_
        rintro c ⟨_, _, named, named', compared⟩
        cases oldNamed.symm.trans named
        cases newNamed.symm.trans named'
        cases failed.symm.trans compared
      · rename_i c compared
        exact .compared ⟨old, new, oldNamed, newNamed, compared⟩

theorem Compares.unique {c' : Release.Comparison} (compares : Compares world arguments c)
    (compares' : Compares world arguments c') : c = c' := by
  obtain ⟨_, _, oldNamed, newNamed, compared⟩ := compares
  obtain ⟨_, _, oldNamed', newNamed', compared'⟩ := compares'
  cases oldNamed.symm.trans oldNamed'
  cases newNamed.symm.trans newNamed'
  exact Except.ok.inj (compared.symm.trans compared')

/-- A comparison that can be made ends with the delivery of its report. -/
theorem Compares.runDiff_eq (compares : Compares world arguments c) (settings : Settings)
    (quiet : Bool) : ∃ heard, runDiff world settings quiet arguments =
      deliver world settings quiet arguments.output heard c := by
  have ends := runDiff_ends world settings quiet arguments
  generalize runDiff world settings quiet arguments = o at ends ⊢
  cases ends with
  | unsound unsound => exact absurd compares (unsound c)
  | compared compares' =>
    cases compares.unique compares'
    exact ⟨_, rfl⟩

/-- A check is refused for its tree, or else ends by printing what it found. -/
theorem runCheck_ends (world : World) (settings : Settings) (quiet : Bool) (name : String) :
    ¬Sound world (.check name) ∧ Complains world.files "" (runCheck world settings quiet name) ∨
      ∃ source tree s heard, sourceOf world name = .ok source ∧ source.Holds world.files tree s ∧
        runCheck world settings quiet name = printing world quiet exitOk world.files heard
          (soundLines ⟨tree.crateName, tree.crateVersion, s.size⟩) := by
  unfold runCheck
  cases named : sourceOf world name with
  | error failure =>
    refine .inl ⟨?_, complains_of_failed _ _ _ ""⟩
    rintro (_ | ⟨named', _⟩)
    cases named.symm.trans named'
  | ok source =>
    have unsound (other : ∀ sound, (Release.check world.files source).outcome ≠ .ok (.ok sound)) :
        ¬Sound world (.check name) := by
      rintro (_ | ⟨named', held⟩)
      cases named.symm.trans named'
      exact other _ (Release.check_eq_sound_iff.mpr ⟨_, _, held, rfl⟩)
    dsimp only
    cases checked : (Release.check world.files source).outcome with
    | error failure => exact .inl ⟨unsound (by simp [checked]), complains_of_failed _ _ _ ""⟩
    | ok answer =>
      cases answer with
      | error issue =>
        exact .inl ⟨unsound (by simp [checked]),
          rfl, rfl, ⟨_, _, List.mem_append_right _ List.mem_cons_self⟩, rfl⟩
      | ok sound =>
        obtain ⟨tree, s, held, rfl⟩ := Release.check_eq_sound_iff.mp checked
        exact .inr ⟨source, tree, s, _, rfl, held, rfl⟩

theorem complains_of_crateLine {sound : Release.Sound} {refusal : Text.Unencodable}
    (refused : world.stdout.refusal? (crateLine sound.crate) = some refusal) :
    Complains world.files (soundLine ++ "\n")
      (printing world false exitOk world.files heard (soundLines sound)) := by
  rw [soundLines, printing_of_refused (write_lines_of_refused isAscii_soundLine refused)]
  exact complains_of_failed _ _ _ _

/-- A run ends before its command has begun, or is that of its command under some settings. -/
theorem perform_cases (world : World) (common : Common) (command : Command) :
    (∀ settings, ¬Governs world common command settings) ∧
      Complains world.files "" (perform world common command) ∨
    ∃ settings, Governs world common command settings ∧
      perform world common command = runCommand world settings common.quiet command := by
  unfold perform Governs
  cases Settings.load world.files (common.config.map Files.Path.ofText) (overrides common command)
      world.environment with
  | error fault => exact .inl ⟨by simp, rfl, rfl, ⟨_, _, List.mem_cons_self⟩, rfl⟩
  | ok settings => exact .inr ⟨settings, rfl, rfl⟩

/-- A command that has settings is run under them. -/
theorem Governs.perform_eq {command : Command} (governed : Governs world common command settings) :
    perform world common command = runCommand world settings common.quiet command := by
  rcases perform_cases world common command with ⟨ungoverned, _⟩ | ⟨settings', governed', same⟩
  · exact absurd governed (ungoverned settings)
  · rw [same, governed.unique governed']

/-- What is spoilt is refused, and what has been written by then stays. -/
theorem perform_spoilt {command : Command} {said : String}
    (spoils : Spoils world common command files said) :
    Complains files said (perform world common command) := by
  cases spoils with
  | @report arguments settings c place files refusal opened unencodable =>
    obtain ⟨governed, compares, ⟨name, asked, named⟩, made⟩ := opened
    obtain ⟨heard, same⟩ := compares.runDiff_eq settings common.quiet
    rw [governed.perform_eq, runCommand, same]
    simp only [asked, deliver, named, made, unencodable]
    exact complains_of_failed _ _ _ ""
  | @place arguments settings c place files octets refusal opened encoded aloud refused =>
    obtain ⟨governed, compares, ⟨name, asked, named⟩, made⟩ := opened
    obtain ⟨heard, same⟩ := compares.runDiff_eq settings common.quiet
    rw [governed.perform_eq, runCommand, same]
    simp only [asked, deliver, named, made, encoded, aloud, writtenLines]
    rw [printing_of_refused (write_lines_of_refused isAscii_writtenLine refused)]
    exact complains_of_failed _ _ _ _
  | @crate name settings source tree s refusal governed named held aloud refused =>
    rw [governed.perform_eq, runCommand]
    rcases runCheck_ends world settings common.quiet name with
      ⟨unsound, _⟩ | ⟨source', tree', s', heard, named', held', printed⟩
    · exact absurd (.check named held) unsound
    · cases named.symm.trans named'
      obtain ⟨rfl, rfl⟩ := held.unique held'
      rw [printed, aloud]
      exact complains_of_crateLine refused

theorem run_eq_perform {words : List String} {command : Command}
    (asked : request programVersion words = .ok (.run common command)) :
    run world words = perform world common command := by
  rw [run, asked]

end Steps

/-- The text `{"index":{"0":{"kind":"module","name":"l"}}}`. -/
def bareOctets : List UInt8 := [
  0x7b, 0x22, 0x69, 0x6e, 0x64, 0x65, 0x78, 0x22, 0x3a, 0x7b, 0x22, 0x30, 0x22, 0x3a, 0x7b, 0x22,
  0x6b, 0x69, 0x6e, 0x64, 0x22, 0x3a, 0x22, 0x6d, 0x6f, 0x64, 0x75, 0x6c, 0x65, 0x22, 0x2c, 0x22,
  0x6e, 0x61, 0x6d, 0x65, 0x22, 0x3a, 0x22, 0x6c, 0x22, 0x7d, 0x7d, 0x7d]

/-- The text
`{"index":{"0":{"kind":"module","name":"l","items":[1]},"1":{"kind":"struct","name":"\ud800"}}}`. -/
def surrogateOctets : List UInt8 := [
  0x7b, 0x22, 0x69, 0x6e, 0x64, 0x65, 0x78, 0x22, 0x3a, 0x7b, 0x22, 0x30, 0x22, 0x3a, 0x7b, 0x22,
  0x6b, 0x69, 0x6e, 0x64, 0x22, 0x3a, 0x22, 0x6d, 0x6f, 0x64, 0x75, 0x6c, 0x65, 0x22, 0x2c, 0x22,
  0x6e, 0x61, 0x6d, 0x65, 0x22, 0x3a, 0x22, 0x6c, 0x22, 0x2c, 0x22, 0x69, 0x74, 0x65, 0x6d, 0x73,
  0x22, 0x3a, 0x5b, 0x31, 0x5d, 0x7d, 0x2c, 0x22, 0x31, 0x22, 0x3a, 0x7b, 0x22, 0x6b, 0x69, 0x6e,
  0x64, 0x22, 0x3a, 0x22, 0x73, 0x74, 0x72, 0x75, 0x63, 0x74, 0x22, 0x2c, 0x22, 0x6e, 0x61, 0x6d,
  0x65, 0x22, 0x3a, 0x22, 0x5c, 0x75, 0x64, 0x38, 0x30, 0x30, 0x22, 0x7d, 0x7d, 0x7d]

/-- The text `{"index":{"0":{"kind":"module","name":"\ud800"}}}`. -/
def surrogateCrateOctets : List UInt8 := [
  0x7b, 0x22, 0x69, 0x6e, 0x64, 0x65, 0x78, 0x22, 0x3a, 0x7b, 0x22, 0x30, 0x22, 0x3a, 0x7b, 0x22,
  0x6b, 0x69, 0x6e, 0x64, 0x22, 0x3a, 0x22, 0x6d, 0x6f, 0x64, 0x75, 0x6c, 0x65, 0x22, 0x2c, 0x22,
  0x6e, 0x61, 0x6d, 0x65, 0x22, 0x3a, 0x22, 0x5c, 0x75, 0x64, 0x38, 0x30, 0x30, 0x22, 0x7d, 0x7d,
  0x7d]

/-- A crate without items, the same crate with a struct whose name is a surrogate, and a crate which has
a surrogate for a name itself. -/
def surrogateWorld : World where
  files := ⟨.root, [(⟨["o"]⟩, .file bareOctets), (⟨["n"]⟩, .file surrogateOctets),
    (⟨["c"]⟩, .file surrogateCrateOctets)]⟩
  environment := []
  stdout := Text.Utf8.charset

def surrogateName : String :=
  Text.ofCodePoints [0xD800]

def bareTree : Tree where
  index := [(0, { declaration := .module { name := "l" } })]
  root := { name := "l" }
  rooted := rfl

def surrogateTree : Tree where
  index := [
    (0, { declaration := .module { name := "l", items := [1] } }),
    (1, { declaration := .struct { name := surrogateName } })]
  root := { name := "l", items := [1] }
  rooted := rfl

def surrogateArguments : DiffArguments where
  old := "o"
  new := "n"
  currentVersion := some "1.0.0"
  format := none
  output := some "out/r"
  failOnBreaking := false

/-- The directory of the report is there, and an empty file for it. -/
def spoiltFiles : Files.Store :=
  ⟨.root, (⟨["out", "r"]⟩, .file []) :: (⟨["out"]⟩, .directory) :: surrogateWorld.files.nodes⟩

theorem bareTree_flattened : Snapshot.ofTree? bareTree = .ok .empty :=
  Tree.ofTree?_eq_ok_iff.mpr ⟨_, _, .done, rfl⟩

theorem surrogateTree_flattened : ∃ s item, Snapshot.ofTree? surrogateTree = .ok s ∧
    s.entries = [(⟨[surrogateName], .struct⟩, item)] ∧ item.isMember = false :=
  ⟨_, _, Tree.ofTree?_eq_ok_iff.mpr ⟨_, _, .answer (by decide) rfl .done, rfl⟩, rfl, rfl⟩

/-- The two crates can be compared, wherever the report is to go, and the report cannot be encoded. -/
theorem surrogateWorld_compares (output : Option String) : ∃ c refusal,
    Compares surrogateWorld { surrogateArguments with output := output } c ∧
      Text.Utf8.encode (content {} c) = .error refusal := by
  obtain ⟨s, item, flattened, entries, free⟩ := surrogateTree_flattened
  have held : (Source.file ⟨.root, ["o"]⟩).Holds surrogateWorld.files bareTree .empty :=
    ⟨rfl, bareTree_flattened⟩
  have held' : (Source.file ⟨.root, ["n"]⟩).Holds surrogateWorld.files surrogateTree s :=
    ⟨rfl, flattened⟩
  have resolves : Release.Resolves bareTree.crateVersion surrogateArguments.current
      ⟨1, 0, 0, none, none⟩ := .written (by decide)
  have compared := Release.diff_eq_ok_iff.mpr ⟨_, _, _, _, _, held, held', resolves, rfl⟩
  have diagnosis := (Diagnosis.between_single entries free).1
  obtain ⟨refusal, unencodable⟩ : ∃ refusal, Text.Utf8.encode ((Diagnosis.between .empty s).text
      (Version.next ⟨1, 0, 0, none, none⟩ (Diagnosis.between .empty s))) = .error refusal := by
    have next : Version.next ⟨1, 0, 0, none, none⟩ ⟨[.added ⟨[surrogateName], .struct⟩ item]⟩ =
        ⟨1, 1, 0, none, none⟩ := by rfl
    have text : (Diagnosis.mk [.added ⟨[surrogateName], .struct⟩ item]).text ⟨1, 1, 0, none, none⟩ =
        "+ " ++ surrogateName ++ " (struct)\n\nNext version is: 1.1.0\n" := by rfl
    rw [diagnosis, next, text]
    exact ⟨_, rfl⟩
  have named : sourceOf surrogateWorld "o" = .ok (.file ⟨.root, ["o"]⟩) := rfl
  have named' : sourceOf surrogateWorld "n" = .ok (.file ⟨.root, ["n"]⟩) := rfl
  exact ⟨_, refusal, ⟨_, _, named, named', compared⟩, unencodable⟩

theorem surrogateWorld_spoils (quiet : Bool) :
    Spoils surrogateWorld ⟨quiet, none, none⟩ (.diff surrogateArguments) spoiltFiles "" := by
  obtain ⟨c, refusal, compares, unencodable⟩ := surrogateWorld_compares (some "out/r")
  have opened : Opens surrogateWorld ⟨quiet, none, none⟩ surrogateArguments {} c ⟨["out", "r"]⟩
      spoiltFiles := ⟨rfl, compares, ⟨_, rfl, rfl⟩, rfl⟩
  exact .report opened unencodable

end CommandLine

end ApiDelta
