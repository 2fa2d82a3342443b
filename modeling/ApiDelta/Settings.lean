import ApiDelta.Failure
import ApiDelta.Notice

/-!
Settings: the format of the report, whether breaking changes fail the run, and how much is told. Each
key is settled by the first source that has it: an explicit override, the environment, or a settings
file. What a source says about a key that is settled before it is not looked at, valid or not.
-/
namespace ApiDelta

inductive Format
  | text
  | json
  deriving DecidableEq, Repr

def Format.label : Format → String
  | .text => "text"
  | .json => "json"

def Format.table : List (String × Format) :=
  [Format.text, .json].map fun format => (format.label, format)

structure Settings where
  format : Format := .text
  failOnBreaking : Bool := false
  verbosity : Nat := 0
  deriving DecidableEq, Repr

/-- Why settings are refused: a key with a value that is not accepted, a file that cannot be read, or a
name that no file can have. -/
inductive SettingsFault
  | value (key : String) (value : String) (reason : Schema.Reason)
  | file (path reason : String)
  | unnameable (fault : Files.NameFault)
  deriving DecidableEq, Repr

namespace SettingsFault

def message : SettingsFault → String
  | .value key shown reason => s!"Invalid value for '{key}' ({shown}): {reason.message}"
  | .file path reason => s!"Failed to read config at {path}: {reason}"
  | .unnameable fault => fault.message

/-- The key at fault. -/
def key? : SettingsFault → Option String
  | .value key .. => some key
  | _ => none

end SettingsFault

namespace Settings

open Schema

/-- The keys, in the order in which their values are looked at. -/
def keys : List String := ["format", "fail_on_breaking", "verbosity"]

/-! ## Sources -/

/-- A letter of a variable's name without its case. The kelvin sign is a capital letter k. -/
def foldCase (c : Char) : Char :=
  if c = '\u212A' then 'k' else c.toLower

def variableMark : String := "apibreak_"

/-- The values that the environment has for the keys. Case does not count in the name of a variable,
and of several spellings the last one counts. -/
def ofEnvironment (environment : List (String × String)) : Fields :=
  keys.filterMap fun key =>
    let named := environment.filter fun pair => pair.1.map foldCase = variableMark ++ key
    named.getLast?.map fun pair => (key, .text pair.2)

/-- Overrides that say something: null says nothing. -/
def stated (overrides : Fields) : Fields :=
  overrides.filter fun field =>
    match field.2 with
    | .null => false
    | _ => true

/-- Lays the sources over each other, the file lowest and the overrides highest. -/
def merged (overrides : Fields) (environment : List (String × String)) (file : Fields) : Fields :=
  let withEnvironment := Json.overlay.overlayFields file (ofEnvironment environment)
  Json.overlay.overlayFields withEnvironment (stated overrides)

/-! ## Values -/

def check (fields : Fields) : Checked Settings :=
  closed keys (fun fields =>
    mk <$> optional fields "format" .text (literal Format.table)
      <*> optional fields "fail_on_breaking" false boolean
      <*> optional fields "verbosity" 0 natural) fields

/-- The first key that is no proper text, as the value at fault. -/
def shownKey (fields : Fields) : String :=
  ((fields.find? fun field => !Text.isWellFormed field.1).map fun field =>
    Text.quoted field.1).getD Json.null.shown

/-- The first of some faults, with the value it concerns. -/
def firstFault (fields : Fields) : List Fault → SettingsFault
  | ⟨.key key :: _, reason⟩ :: _ => .value key ((fields.lookup key).getD .null).shown reason
  | ⟨_, reason⟩ :: _ => .value "" (shownKey fields) reason
  | [] => .value "" Json.null.shown .missing

/-- The settings that the sources give together. -/
def resolve (overrides : Fields) (environment : List (String × String)) (file : Fields) :
    Except SettingsFault Settings :=
  let fields := merged overrides environment file
  match check fields with
  | .sound settings => .ok settings
  | .faulty faults => .error (firstFault fields faults)

/-! ## Files -/

/-- Line ends as a text file may have them, brought to one form. -/
def unifyLineEnds : List Char → List Char
  | '\r' :: '\n' :: rest => '\n' :: unifyLineEnds rest
  | '\r' :: rest => '\n' :: unifyLineEnds rest
  | c :: rest => c :: unifyLineEnds rest
  | [] => []

/-- The keys and values in the text of a settings file. -/
def fieldsOfOctets (octets : List UInt8) : Except String Fields :=
  match Text.Utf8.decode octets with
  | .error refusal => .error refusal.message
  | .ok text =>
    match Json.read (unifyLineEnds text) with
    | .error refusal => .error refusal.message
    | .ok (.object fields) => .ok fields
    | .ok _ => .error "top level must be a JSON object"

/-- Reads a settings file that must exist. -/
def readFile (files : Files.Store) (path : Files.Path) : Except SettingsFault Fields :=
  match path.fault? with
  | some fault => .error (.unnameable fault)
  | none =>
    match files.read path with
    | .error trouble => .error (.file path.text trouble.message)
    | .ok octets => (fieldsOfOctets octets).mapError (.file path.text)

/-- The file that is read, if it exists, when no other is named. -/
def defaultFile (working : Files.Place) : Files.Path :=
  (working.inside "apibreak.json").path

/-- The settings file: the one that is named, or else the default one if there is one. -/
def loadFile (files : Files.Store) : Option Files.Path → Except SettingsFault Fields
  | some path => readFile files path
  | none =>
    let path := defaultFile files.working
    if files.isFile path then readFile files path else .ok []

/-- Settings from all sources. -/
def load (files : Files.Store) (path : Option Files.Path) (overrides : Fields)
    (environment : List (String × String)) : Except SettingsFault Settings :=
  match loadFile files path with
  | .error fault => .error fault
  | .ok file => resolve overrides environment file

/-- The least urgent notices that are shown. -/
def threshold (settings : Settings) (quiet : Bool) : Level :=
  if quiet then .error
  else if settings.verbosity ≥ 2 then .debug
  else if settings.verbosity = 1 then .info
  else .warning

end Settings

end ApiDelta
