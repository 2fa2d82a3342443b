import ApiDelta.Files.Store
import ApiDelta.Json.Reader
import ApiDelta.Text.Utf8
import ApiDelta.Tree.Basic
import ApiDelta.Version.Basic

/-!
Failures: why no answer can be given. A file may not be readable as JSON, a tree may be malformed, and
there may be no version to start from. Each failure has a text for people.
-/
namespace ApiDelta

/-- Why the content of a file is not a JSON value. -/
inductive ContentFault
  | encoding (refusal : Text.Utf8.Refusal)
  | syntactic (refusal : Json.Refusal)
  deriving DecidableEq, Repr

def ContentFault.message : ContentFault → String
  | .encoding refusal => refusal.message
  | .syntactic refusal => refusal.message

/-- The JSON value that a file holds. -/
def jsonOfOctets (octets : List UInt8) : Except ContentFault Json :=
  match Text.Utf8.decode octets with
  | .error refusal => .error (.encoding refusal)
  | .ok text =>
    match Json.read text with
    | .error refusal => .error (.syntactic refusal)
    | .ok value => .ok value

/-- Why a file could not be loaded. -/
inductive LoadFault
  | file (trouble : Files.Trouble)
  | content (fault : ContentFault)
  deriving DecidableEq, Repr

namespace LoadFault

def code : LoadFault → Tree.ProblemCode
  | .file _ => .fileNotFound
  | .content _ => .invalidJson

def message : LoadFault → String
  | .file .notFound => "no such file"
  | .file trouble => trouble.message
  | .content fault => fault.message

end LoadFault

/-- A failure. `path` is the name of a file as it is shown; a name that no file can have is refused
before any file is looked for. A text is unencodable if there are no octets for it where it is written. -/
inductive Failure
  | load (path : String) (fault : LoadFault)
  | malformed (problem : Tree.Problem)
  | unreadableKey (key : String)
  | unnameable (fault : Files.NameFault)
  | invalidVersion (text : String)
  | noVersion
  | unencodable (refusal : Text.Unencodable)
  deriving DecidableEq, Repr

namespace Failure

def ofRefusal : Tree.Refusal → Failure
  | .problem problem => .malformed problem
  | .unreadableKey key => .unreadableKey key

def text : Failure → String
  | .load path fault => s!"{fault.code.label}: {path}: {fault.message}"
  | .malformed problem => s!"{problem.code.label}: {problem.message}"
  | .unreadableKey key => Tree.unreadableKeyMessage key
  | .unnameable fault => fault.message
  | .invalidVersion text => Version.refusal text
  | .noVersion =>
    "No current version given and the old API tree does not record crate_version"
  | .unencodable refusal => refusal.message

/-- The violations behind a failure of the schema. -/
def faults? : Failure → Option (List Schema.Fault)
  | .malformed problem => problem.faults?
  | _ => none

end Failure

end ApiDelta
