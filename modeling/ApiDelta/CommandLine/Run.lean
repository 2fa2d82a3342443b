import ApiDelta.CommandLine.Options
import ApiDelta.Release
import ApiDelta.Settings

/-!
Running a command line over a store of files. The outcome is the exit status, what was written to the
two output channels, and the files afterwards. Status 2 means that something was refused: the input, or
a text that there are no octets for where it was to be written. Status 1 means that breaking changes
were found and were asked to count as a failure, or that the report could not be written.

Standard output takes the texts that its encoding has octets for, and refuses the others; a run that is
refused there has printed what came before. Standard error takes everything, with escapes for surrogates.
-/
namespace ApiDelta.CommandLine

/-- A line for people, with further lines that go into the details. -/
structure Line where
  text : String
  details : List String := []
  deriving DecidableEq, Repr

structure Outcome where
  exit : Nat
  stdout : String := ""
  stderr : List Line := []
  files : Files.Store
  deriving DecidableEq, Repr

/-- What a run can see, and the encoding of its standard output. -/
structure World where
  files : Files.Store
  environment : List (String × String)
  stdout : Text.Charset

def exitOk : Nat := 0

def exitBreaking : Nat := 1

def exitRefused : Nat := 2

/-- The version of the program itself. -/
def programVersion : String := "apibreak 0.1.0"

/-- A violation of a schema, spelled out. -/
def faultLine (fault : Schema.Fault) : String :=
  let steps := fault.location.map fun
    | .key name => name
    | .index position => toString position
  String.intercalate "." steps ++ ": " ++ fault.reason.message

def linesOfText (text : String) : List Line :=
  let lines := text.toList.splitOn '\n'
  (if lines.getLast? = some [] then lines.dropLast else lines).map fun line =>
    ⟨String.ofList line, []⟩

/-- The notices that reach people at a level. -/
def audible (threshold : Level) (notices : List Notice) : List Line :=
  (notices.filter fun notice => threshold.rank ≤ notice.level.rank).map fun notice =>
    ⟨notice.line, []⟩

def refusalLine (text : String) (faults : List Schema.Fault) : Line :=
  ⟨"Error: " ++ text, faults.map faultLine⟩

/-- What the options of a command line say about settings. -/
def overrides (common : Common) : Command → Schema.Fields
  | .diff arguments =>
    [("format", Json.ofTextOption arguments.format),
      ("fail_on_breaking", if arguments.failOnBreaking then .bool true else .null),
      ("verbosity", verbosity)]
  | .check _ => [("verbosity", verbosity)]
where
  verbosity : Json :=
    match common.verbosity with
    | some count => .int count
    | none => .null

/-- The place that an option or argument names. -/
def placeOf (world : World) (name : String) : Except Failure Files.Place :=
  let path := Files.Path.ofText name
  match path.searchFault? with
  | some fault => .error (.unnameable fault)
  | none => .ok (path.resolved world.files.working)

/-- The source that an option or argument names. -/
def sourceOf (world : World) (name : String) : Except Failure Source :=
  (placeOf world name).map fun place => .file place.path

/-- The outcome of a run in which something could not be done. -/
def broken (files : Files.Store) (heard : List Line) (text : String) : Outcome :=
  { exit := exitBreaking
    stderr := heard ++ [⟨"Unexpected error: " ++ text, []⟩]
    files := files }

/-- The outcome of a run that failed before it had printed anything. -/
def failed (files : Files.Store) (heard : List Line) (failure : Failure) : Outcome :=
  { exit := exitRefused
    stderr := heard ++ [refusalLine failure.text (failure.faults?.getD [])]
    files := files }

/-- The outcome of a run that ends by printing some texts, unless it is quiet. -/
def printing (world : World) (quiet : Bool) (exit : Nat) (files : Files.Store) (heard : List Line)
    (texts : List String) : Outcome :=
  match world.stdout.write (if quiet then [] else texts) with
  | (said, some refusal) => { failed files heard (.unencodable refusal) with stdout := said }
  | (said, none) => { exit := exit, stdout := said, stderr := heard, files := files }

/-- Lines as they are printed: the text of a line, and then its end. -/
def lines (texts : List String) : List String :=
  texts.flatMap fun text => [text, "\n"]

/-- The report in the format that was settled on. -/
def content (settings : Settings) (comparison : Release.Comparison) : String :=
  match settings.format with
  | .json => comparison.report.document
  | .text => comparison.diagnosis.text comparison.proposed

def verdict (settings : Settings) (comparison : Release.Comparison) : Nat :=
  if comparison.report.breaking && settings.failOnBreaking then exitBreaking else exitOk

/-- What is said when a report could not be written. -/
def writeTroubleText (t : Files.Store.WriteTrouble) : String :=
  s!"[Errno {t.trouble.number}] {t.trouble.message}: " ++ Text.quoted t.place.text

def writtenLine : String := "[OK] Diff complete"

def reportLine (place : Files.Place) : String :=
  "  Report: " ++ place.text

/-- What is printed when a report has been written to a file. -/
def writtenLines (place : Files.Place) (comparison : Release.Comparison) : List String :=
  lines [writtenLine, reportLine place, "  Next version: " ++ comparison.report.nextVersion]

/-- Delivers a report to standard output or to a file. A file is there, and empty, before it turns out
that its text cannot be encoded. -/
def deliver (world : World) (settings : Settings) (quiet : Bool) (output : Option String)
    (heard : List Line) (comparison : Release.Comparison) : Outcome :=
  let text := content settings comparison
  let exit := verdict settings comparison
  match output with
  | none => printing world quiet exit world.files heard [text]
  | some name =>
    match placeOf world name with
    | .error failure => failed world.files heard failure
    | .ok place =>
      match world.files.write place [] with
      | .error stopped => broken stopped.store heard (writeTroubleText stopped)
      | .ok files =>
        match Text.Utf8.encode text with
        | .error refusal => failed files heard (.unencodable refusal)
        | .ok octets =>
          printing world quiet exit (files.put place (.file octets)) heard
            (writtenLines place comparison)

/-- The version that a comparison is asked to start from. -/
def DiffArguments.current (arguments : DiffArguments) : Release.Current :=
  match arguments.currentVersion with
  | some text => .written text
  | none => .recorded

def runDiff (world : World) (settings : Settings) (quiet : Bool) (arguments : DiffArguments) :
    Outcome :=
  match sourceOf world arguments.old, sourceOf world arguments.new with
  | .error failure, _ => failed world.files [] failure
  | _, .error failure => failed world.files [] failure
  | .ok old, .ok new =>
    let told := Release.diff world.files old new arguments.current
    let heard := audible (settings.threshold quiet) told.notices
    match told.outcome with
    | .error failure => failed world.files heard failure
    | .ok comparison => deliver world settings quiet arguments.output heard comparison

def soundLine : String := "[OK] API tree is valid"

def crateLine (crate : String) : String :=
  "  Crate: " ++ crate

/-- What is printed about a tree that has passed a check. -/
def soundLines (sound : Release.Sound) : List String :=
  lines [soundLine, crateLine sound.crate, "  Public items: " ++ toString sound.items]

def runCheck (world : World) (settings : Settings) (quiet : Bool) (tree : String) : Outcome :=
  match sourceOf world tree with
  | .error failure => failed world.files [] failure
  | .ok source =>
    let told := Release.check world.files source
    let heard := audible (settings.threshold quiet) told.notices
    match told.outcome with
    | .error failure => failed world.files heard failure
    | .ok (.error issue) =>
      { exit := exitRefused
        stderr := heard ++
          [refusalLine (issue.code.label ++ ": " ++ issue.message) issue.faults]
        files := world.files }
    | .ok (.ok sound) => printing world quiet exitOk world.files heard (soundLines sound)

/-- Runs a command under some settings. -/
def runCommand (world : World) (settings : Settings) (quiet : Bool) : Command → Outcome
  | .diff arguments => runDiff world settings quiet arguments
  | .check tree => runCheck world settings quiet tree

/-- Runs a command under the settings that its options, the environment and a file come to. -/
def perform (world : World) (common : Common) (command : Command) : Outcome :=
  match Settings.load world.files (common.config.map Files.Path.ofText) (overrides common command)
      world.environment with
  | .error fault =>
    { exit := exitRefused
      stderr := [⟨"Error: " ++ fault.message, []⟩]
      files := world.files }
  | .ok settings => runCommand world settings common.quiet command

/-- The files that a command names, besides its settings. -/
def Command.files : Command → List String
  | .diff arguments => [arguments.old, arguments.new] ++ arguments.output.toList
  | .check tree => [tree]

/-- Every place that a run of a command line from a working directory may look at or write to. -/
def places (working : Files.Place) (words : List String) : List Files.Place :=
  match request programVersion words with
  | .ok (.run common command) =>
    let named := command.files.map fun name => ((Files.Path.ofText name).resolved working).path
    let config :=
      match common.config with
      | some name => Files.Path.ofText name
      | none => Settings.defaultFile working
    (config :: named).flatMap (Files.Path.places working)
  | _ => []

/-- Runs a command line. -/
def run (world : World) (words : List String) : Outcome :=
  match request programVersion words with
  | .error (.shown text) => { exit := exitOk, stdout := text, files := world.files }
  | .error (.refused grammar complaint) =>
    { exit := exitRefused
      stderr := linesOfText grammar.usage ++
        [⟨s!"{grammar.program}: error: {complaint.message}", []⟩]
      files := world.files }
  | .ok .explain =>
    { exit := exitBreaking
      stdout := generalUsage ++ generalDescription
      files := world.files }
  | .ok (.run common command) => perform world common command

end ApiDelta.CommandLine
