import ApiDelta.CommandLine.Usage
import ApiDelta.Text.Digit
import ApiDelta.Text.Quoted

/-!
The words of a command line and what they say. A word that begins with a hyphen is an option, unless it
is a hyphen alone, a negative number, or has a space in it; after the word `--` nothing is an option.
A long option may be cut short as long as it stays the only one that begins so, and may carry its value
after an equals sign. One-letter options may be run together.

The words before a command belong to the program, the words after it to the command. Options that
nobody knows are collected, and are complained about only when everything else is in order.
-/
namespace ApiDelta.CommandLine

inductive Opt
  | help
  | version
  | quiet
  | verbose
  | config
  | oldTree
  | newTree
  | currentVersion
  | format
  | output
  | failOnBreaking
  deriving DecidableEq, Repr

namespace Opt

def spellings : Opt → List String
  | .help => ["-h", "--help"]
  | .version => ["--version"]
  | .quiet => ["--quiet"]
  | .verbose => ["-v", "--verbose"]
  | .config => ["--config"]
  | .oldTree => ["--from"]
  | .newTree => ["--to"]
  | .currentVersion => ["--current-version"]
  | .format => ["--format"]
  | .output => ["--output"]
  | .failOnBreaking => ["--fail-on-breaking"]

/-- The option in complaints. -/
def title (opt : Opt) : String :=
  String.intercalate "/" opt.spellings

def takesValue : Opt → Bool
  | .config | .oldTree | .newTree | .currentVersion | .format | .output => true
  | _ => false

/-- The values that an option is limited to. -/
def choices? : Opt → Option (List String)
  | .format => some ["text", "json"]
  | _ => none

end Opt

/-- What the words that are not options are for. -/
inductive Slot
  | none
  | tree
  | command
  deriving DecidableEq, Repr

/-- A program or command that reads words. -/
structure Grammar where
  program : String
  usage : String
  description : String
  options : List Opt
  required : List Opt
  slot : Slot

namespace Grammar

def general : Grammar where
  program := "apibreak"
  usage := generalUsage
  description := generalDescription
  options := [.help, .version]
  required := []
  slot := .command

def diff : Grammar where
  program := "apibreak diff"
  usage := diffUsage
  description := diffDescription
  options := [.help, .quiet, .verbose, .config, .oldTree, .newTree, .currentVersion, .format,
    .output, .failOnBreaking]
  required := [.oldTree, .newTree]
  slot := .none

def check : Grammar where
  program := "apibreak check"
  usage := checkUsage
  description := checkDescription
  options := [.help, .quiet, .verbose, .config]
  required := []
  slot := .tree

/-- Every spelling of an option, in the order of declaration. -/
def spellings (g : Grammar) : List (String × Opt) :=
  g.options.flatMap fun opt => opt.spellings.map fun spelling => (spelling, opt)

end Grammar

inductive Complaint
  | ambiguous (word : String) (candidates : List String)
  | expectedValue (title : String)
  | ignoredValue (title value : String)
  | invalidChoice (title value : String) (choices : List String)
  | missing (titles : List String)
  | unrecognized (words : List String)
  deriving DecidableEq, Repr

def Complaint.message : Complaint → String
  | .ambiguous word candidates =>
    s!"ambiguous option: {word} could match " ++ String.intercalate ", " candidates
  | .expectedValue title => s!"argument {title}: expected one argument"
  | .ignoredValue title value =>
    s!"argument {title}: ignored explicit argument {Text.quoted value}"
  | .invalidChoice title value choices =>
    s!"argument {title}: invalid choice: {Text.quoted value} (choose from " ++
      String.intercalate ", " (choices.map Text.quoted) ++ ")"
  | .missing titles =>
    "the following arguments are required: " ++ String.intercalate ", " titles
  | .unrecognized words => "unrecognized arguments: " ++ String.intercalate " " words

/-- Why reading ends before there is anything to run: something was asked to be shown, or there is a
complaint. -/
inductive Halt
  | shown (text : String)
  | refused (grammar : Grammar) (complaint : Complaint)

/-! ## Words -/

/-- A known option as a word spells it, with a value in the same word if there is one. -/
structure Spelled where
  opt : Opt
  spelling : String
  value : Option String
  deriving DecidableEq, Repr

inductive WordSort
  | plain
  | separator
  | known (spelled : Spelled)
  | unknown
  deriving DecidableEq, Repr

structure Word where
  text : String
  sort : WordSort
  deriving DecidableEq, Repr

/-- Cuts a word at its first equals sign. -/
def cutAtEquals (word : List Char) : String × Option String :=
  (String.ofList (word.takeWhile (· ≠ '=')),
    match word.dropWhile (· ≠ '=') with
    | [] => none
    | _ :: value => some (String.ofList value))

/-- A negative number, possibly with a line end after it. -/
def isNegativeNumber : List Char → Bool
  | '-' :: rest =>
    let body := if rest.getLast? = some '\n' then rest.dropLast else rest
    let fraction := body.dropWhile Text.isDecimal
    match fraction with
    | [] => !body.isEmpty
    | '.' :: digits => !digits.isEmpty && digits.all Text.isDecimal
    | _ => false
  | _ => false

/-- The options that a word which spells none in full may stand for. -/
def candidates (g : Grammar) (word : List Char) : List Spelled :=
  match word with
  | '-' :: '-' :: _ =>
    let (start, value) := cutAtEquals word
    g.spellings.filterMap fun (spelling, opt) =>
      if start.toList.isPrefixOf spelling.toList then some ⟨opt, spelling, value⟩ else none
  | _ =>
    g.spellings.filterMap fun (spelling, opt) =>
      if spelling.toList = word.take 2 then
        some ⟨opt, spelling, some (String.ofList (word.drop 2))⟩
      else if word.isPrefixOf spelling.toList then some ⟨opt, spelling, none⟩
      else none

/-- What a word is, if it does not come after the word `--`. -/
def sortOf (g : Grammar) (text : String) : Except Complaint WordSort :=
  let word := text.toList
  if word.head? ≠ some '-' then .ok .plain
  else
    match g.spellings.lookup text with
    | some opt => .ok (.known ⟨opt, text, none⟩)
    | none =>
      if word.length = 1 then .ok .plain
      else
        let (start, value) := cutAtEquals word
        match value, g.spellings.lookup start with
        | some value, some opt => .ok (.known ⟨opt, start, some value⟩)
        | _, _ =>
          match candidates g word with
          | [only] => .ok (.known only)
          | [] =>
            if isNegativeNumber word || word.contains ' ' then .ok .plain else .ok .unknown
          | several => .error (.ambiguous text (several.map (·.spelling)))

/-- Sorts all words. -/
def sortWords (g : Grammar) : List String → Except Complaint (List Word)
  | [] => .ok []
  | text :: rest =>
    if text = "--" then .ok (⟨text, .separator⟩ :: rest.map (⟨·, .plain⟩))
    else
      match sortOf g text with
      | .error complaint => .error complaint
      | .ok sort => (sortWords g rest).map (⟨text, sort⟩ :: ·)

/-! ## Reading -/

/-- An option that was given, with its value if it takes one. -/
structure Given where
  opt : Opt
  value : Option String := none
  deriving DecidableEq, Repr

/-- The options in one word, and the one among them whose value has to come in the next word. -/
structure Options where
  complete : List Given := []
  waiting : Option Opt := none
  deriving DecidableEq, Repr

namespace Options

/-- An option without its value, in case it takes one. -/
def bare (opt : Opt) : Options :=
  if opt.takesValue then { waiting := some opt } else { complete := [⟨opt, none⟩] }

def withValue (opt : Opt) (text : String) : Options :=
  { complete := [⟨opt, some text⟩] }

def after (opt : Opt) (options : Options) : Options :=
  { options with complete := ⟨opt, none⟩ :: options.complete }

end Options

/-- Options without values that are run together in one word, followed by one that may have one. The
characters are what is left of the word after `opt`. -/
def separateRun (g : Grammar) (opt : Opt) : List Char → Except Complaint Options
  | [] => .ok (.bare opt)
  | letter :: rest =>
    if opt.takesValue then .ok (.withValue opt (String.ofList (letter :: rest)))
    else
      match g.spellings.lookup (String.ofList ['-', letter]) with
      | some next => (separateRun g next rest).map (·.after opt)
      | none => .error (.ignoredValue opt.title (String.ofList (letter :: rest)))

/-- The options in one word. -/
def separate (g : Grammar) (spelled : Spelled) : Except Complaint Options :=
  match spelled.value with
  | none => .ok (.bare spelled.opt)
  | some value =>
    if spelled.opt.takesValue then .ok (.withValue spelled.opt value)
    else if value = "" ∨ "--".toList.isPrefixOf spelled.spelling.toList then
      .error (.ignoredValue spelled.opt.title value)
    else separateRun g spelled.opt value.toList

/-- What the words say: the options in order, the words that were taken for the slot, and the words
that nobody knows what to do with. -/
structure Reading where
  given : List Given := []
  taken : List String := []
  extras : List String := []
  deriving DecidableEq, Repr

namespace Reading

def addGiven (given : List Given) (r : Reading) : Reading :=
  { r with given := given ++ r.given }

def addTaken (words : List String) (r : Reading) : Reading :=
  { r with taken := words ++ r.taken }

def addExtra (word : String) (r : Reading) : Reading :=
  { r with extras := word :: r.extras }

end Reading

/-- What one option does at once: it may ask for a text, or have a value that is not permitted. -/
def actOn (g : Grammar) (version : String) (given : Given) : Except Halt Unit :=
  match given.opt with
  | .help => .error (.shown (g.usage ++ g.description))
  | .version => .error (.shown (version ++ "\n"))
  | opt =>
    match opt.choices?, given.value with
    | some choices, some value =>
      if choices.contains value then .ok ()
      else .error (.refused g (.invalidChoice opt.title value choices))
    | _, _ => .ok ()

def actOnAll (g : Grammar) (version : String) : List Given → Except Halt Unit
  | [] => .ok ()
  | given :: rest =>
    match actOn g version given with
    | .error halt => .error halt
    | .ok () => actOnAll g version rest

/-- Reads the words one after the other. `free` says that the slot has not been filled. -/
def readWords (g : Grammar) (version : String) (free : Bool) : List Word → Except Halt Reading
  | [] => .ok {}
  | ⟨text, .unknown⟩ :: rest => (readWords g version free rest).map (·.addExtra text)
  | ⟨_, .known spelled⟩ :: rest =>
    match separate g spelled with
    | .error complaint => .error (.refused g complaint)
    | .ok ⟨given, none⟩ =>
      match actOnAll g version given with
      | .error halt => .error halt
      | .ok () => (readWords g version free rest).map (·.addGiven given)
    | .ok ⟨given, some opt⟩ =>
      match rest with
      | ⟨value, .plain⟩ :: rest =>
        let given := given ++ [⟨opt, some value⟩]
        match actOnAll g version given with
        | .error halt => .error halt
        | .ok () => (readWords g version free rest).map (·.addGiven given)
      | _ => .error (.refused g (.expectedValue opt.title))
  | ⟨text, .plain⟩ :: rest =>
    match g.slot, free with
    | .command, true => .ok { taken := text :: rest.map (·.text) }
    | .tree, true =>
      match rest with
      | ⟨_, .separator⟩ :: rest => (readWords g version false rest).map (·.addTaken [text])
      | rest => (readWords g version false rest).map (·.addTaken [text])
    | _, _ => (readWords g version free rest).map (·.addExtra text)
  | ⟨text, .separator⟩ :: rest =>
    match g.slot, free, rest with
    | .command, true, _ :: _ => .ok { taken := text :: rest.map (·.text) }
    | .tree, true, ⟨word, _⟩ :: rest => (readWords g version false rest).map (·.addTaken [word])
    | _, _, rest => (readWords g version free rest).map (·.addExtra text)

/-- What is required and was not given. -/
def missing (g : Grammar) (r : Reading) : List String :=
  (g.required.filter fun opt => !r.given.any (·.opt = opt)).map Opt.title ++
    if g.slot = .tree ∧ r.taken.isEmpty then ["tree"] else []

/-- Reads the words of a program or command. -/
def read (g : Grammar) (version : String) (words : List String) : Except Halt Reading :=
  match sortWords g words with
  | .error complaint => .error (.refused g complaint)
  | .ok sorted =>
    match readWords g version true sorted with
    | .error halt => .error halt
    | .ok reading =>
      match missing g reading with
      | [] => .ok reading
      | titles => .error (.refused g (.missing titles))

namespace Reading

/-- The last value that was given for an option. -/
def value? (r : Reading) (opt : Opt) : Option String :=
  ((r.given.filter (·.opt = opt)).getLast?).bind (·.value)

def count (r : Reading) (opt : Opt) : Nat :=
  r.given.countP (·.opt = opt)

def has (r : Reading) (opt : Opt) : Bool :=
  r.given.any (·.opt = opt)

end Reading

/-! ## Commands -/

/-- Options that all commands have. -/
structure Common where
  quiet : Bool
  verbosity : Option Nat
  config : Option String
  deriving DecidableEq, Repr

structure DiffArguments where
  old : String
  new : String
  currentVersion : Option String
  format : Option String
  output : Option String
  failOnBreaking : Bool
  deriving DecidableEq, Repr

inductive Command
  | diff (arguments : DiffArguments)
  | check (tree : String)
  deriving DecidableEq, Repr

/-- What a command line asks for. No command at all asks for an explanation. -/
inductive Request
  | explain
  | run (common : Common) (command : Command)
  deriving DecidableEq, Repr

def commandNames : List String := ["diff", "check"]

def common (r : Reading) : Common where
  quiet := r.has .quiet
  verbosity := if r.has .verbose then some (r.count .verbose) else none
  config := r.value? .config

def diffCommand (r : Reading) : Command :=
  .diff {
    old := (r.value? .oldTree).getD ""
    new := (r.value? .newTree).getD ""
    currentVersion := r.value? .currentVersion
    format := r.value? .format
    output := r.value? .output
    failOnBreaking := r.has .failOnBreaking }

def checkCommand (r : Reading) : Command :=
  .check (r.taken.head?.getD "")

/-- Accepts a request if no word is left over. -/
def withoutExtras (extras : List String) (request : Request) : Except Halt Request :=
  if extras.isEmpty then .ok request
  else .error (.refused .general (.unrecognized extras))

/-- Reads the words of a command. -/
def readCommand (version : String) (extras : List String) (g : Grammar)
    (make : Reading → Command) (words : List String) : Except Halt Request :=
  match read g version words with
  | .error halt => .error halt
  | .ok reading =>
    withoutExtras (extras ++ reading.extras) (.run (common reading) (make reading))

/-- The request that a command line makes. -/
def request (version : String) (words : List String) : Except Halt Request :=
  match read .general version words with
  | .error halt => .error halt
  | .ok reading =>
    match reading.taken with
    | [] => withoutExtras reading.extras .explain
    | "diff" :: rest => readCommand version reading.extras .diff diffCommand rest
    | "check" :: rest => readCommand version reading.extras .check checkCommand rest
    | other :: _ => .error (.refused .general (.invalidChoice "command" other commandNames))

end ApiDelta.CommandLine
