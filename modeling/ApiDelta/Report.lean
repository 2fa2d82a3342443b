import ApiDelta.Json.Canonical
import ApiDelta.Version.Advice

/-!
Reports: what is said about a diagnosis to people and to programs. The text has a line for each change
and ends with the proposed version; the JSON document is canonical, so equal diagnoses give equal
documents.
-/
namespace ApiDelta

/-- One change for programs. The signature is that of the new item, or of the old one if it was
removed; a modification gives both. -/
structure Record where
  change : String
  item : String
  path : List String
  kind : String
  breaking : Bool
  signature : String
  oldSignature : Option String := none
  changedFields : List String := []
  deriving DecidableEq, Repr

def Change.record (change : Change) : Record :=
  let plain (item : Item) : Record :=
    { change := change.kind.label
      item := change.id.display
      path := change.id.path
      kind := change.id.kind.label
      breaking := change.breaking
      signature := item.signature }
  match change with
  | .removed _ item => plain item
  | .deprecated _ item => plain item
  | .added _ item => plain item
  | .modified _ old new _ changedFields =>
    { plain new with oldSignature := some old.signature, changedFields := changedFields }

def Record.toJson (r : Record) : Json :=
  .object [("change", .text r.change), ("item", .text r.item), ("path", Json.ofTexts r.path),
    ("kind", .text r.kind), ("breaking", .bool r.breaking), ("signature", .text r.signature),
    ("old_signature", Json.ofTextOption r.oldSignature),
    ("changed_fields", Json.ofTexts r.changedFields)]

/-- The whole outcome of a comparison for programs. -/
structure Report where
  crate : String
  currentVersion : String
  nextVersion : String
  bump : Bump
  breaking : Bool
  summary : Summary
  changes : List Record
  deriving DecidableEq, Repr

namespace Report

/-- The report on a diagnosis of a crate at a version. -/
def of (crate : String) (current : Version) (d : Diagnosis) : Report where
  crate := crate
  currentVersion := current.text
  nextVersion := (current.next d).text
  bump := d.bump
  breaking := d.isBreaking
  summary := d.summary
  changes := d.changes.map Change.record

def toJson (r : Report) : Json :=
  .object [("crate", .text r.crate), ("current_version", .text r.currentVersion),
    ("next_version", .text r.nextVersion), ("bump", .text r.bump.label),
    ("breaking", .bool r.breaking), ("change_summary", r.summary.toJson),
    ("changes", .array (r.changes.map Record.toJson))]

/-- The report as a canonical JSON document on one line. -/
def document (r : Report) : String :=
  r.toJson.canonicalText ++ "\n"

end Report

/-- The report for people: a line for each change, an empty line if there were any, and the version
that comes next. -/
def Diagnosis.text (d : Diagnosis) (next : Version) : String :=
  let lines := if d.isEmpty then [] else d.lines ++ [""]
  String.intercalate "\n" (lines ++ [s!"Next version is: {next.text}"]) ++ "\n"

end ApiDelta
