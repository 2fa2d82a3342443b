import ApiDelta.Identity

/-!
What can be wrong with an extracted tree. A problem has a code for programs, a message for people, and
the number of the entry at fault if there is one.
-/
namespace ApiDelta.Tree

inductive ProblemCode
  | invalidStructure
  | invalidRoot
  | unknownItemKind
  | danglingReference
  | unexpectedItem
  | duplicateItemId
  | fileNotFound
  | invalidJson
  deriving DecidableEq, Repr

def ProblemCode.label : ProblemCode → String
  | .invalidStructure => "INVALID_STRUCTURE"
  | .invalidRoot => "INVALID_ROOT"
  | .unknownItemKind => "UNKNOWN_ITEM_KIND"
  | .danglingReference => "DANGLING_REFERENCE"
  | .unexpectedItem => "UNEXPECTED_ITEM"
  | .duplicateItemId => "DUPLICATE_ITEM_ID"
  | .fileNotFound => "FILE_NOT_FOUND"
  | .invalidJson => "INVALID_JSON"

/-- Where an entry was referred to. -/
inductive Place
  | inModule
  | reexportedBy (importer : Int)
  | fieldOf (owner : Int)
  | variantOf (owner : Int)
  | implOf (owner : Int)
  | memberOf (owner : Int)
  deriving DecidableEq, Repr

def Place.phrase : Place → String
  | .inModule => "directly inside a module"
  | .reexportedBy importer => s!"as the target of re-export {importer}"
  | .fieldOf owner => s!"in the field list of item {owner}"
  | .variantOf owner => s!"in the variant list of enum {owner}"
  | .implOf owner => s!"in the impl list of item {owner}"
  | .memberOf owner => s!"inside impl or trait {owner}"

inductive Problem
  | notObject
  | kindNotText (key : String) (id : Option Int)
  | kindUnknown (key : String) (id : Option Int) (shown : String)
  | schema (faults : List Schema.Fault)
  | rootNumber (root : Int)
  | rootMissing (root : Int)
  | rootNotModule (root : Int) (kind : String)
  | dangling (id referrer : Int)
  | misplaced (id : Int) (kind : String) (place : Place)
  | collision (id : Identity)
  deriving DecidableEq, Repr

namespace Problem

def code : Problem → ProblemCode
  | .notObject => .invalidStructure
  | .kindNotText .. => .invalidStructure
  | .kindUnknown .. => .unknownItemKind
  | .schema _ => .invalidStructure
  | .rootNumber _ => .invalidRoot
  | .rootMissing _ => .invalidRoot
  | .rootNotModule .. => .invalidRoot
  | .dangling .. => .danglingReference
  | .misplaced .. => .unexpectedItem
  | .collision _ => .duplicateItemId

def message : Problem → String
  | .notObject => "API tree must be a JSON object"
  | .kindNotText key _ => s!"item {key} has no string kind"
  | .kindUnknown key _ shown => s!"item {key} declares unsupported kind {shown}"
  | .schema faults => "invalid API tree: " ++ Schema.heading faults.length "ApiTree"
  | .rootNumber root => s!"root id must be 0, got {root}"
  | .rootMissing _ => "root module is missing from the index"
  | .rootNotModule _ kind => s!"root item must be a module, got {Text.quoted kind}"
  | .dangling id referrer => s!"item {id} referenced by item {referrer} is missing from the index"
  | .misplaced id kind place =>
    s!"item {id} of kind {Text.quoted kind} cannot appear {place.phrase}"
  | .collision id => s!"two reachable items flatten to the same identity {id.display}"

/-- The entry at fault. -/
def itemId : Problem → Option Int
  | .notObject => none
  | .kindNotText _ id => id
  | .kindUnknown _ id _ => id
  | .schema _ => none
  | .rootNumber _ => none
  | .rootMissing root => some root
  | .rootNotModule root _ => some root
  | .dangling id _ => some id
  | .misplaced id _ _ => some id
  | .collision _ => none

/-- The violations behind a problem of the schema. -/
def faults? : Problem → Option (List Schema.Fault)
  | .schema faults => some faults
  | _ => none

end Problem

end ApiDelta.Tree
