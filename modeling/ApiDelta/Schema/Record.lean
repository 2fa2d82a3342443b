import ApiDelta.Json.Notation
import ApiDelta.Schema.Checked

/-!
Records: objects with known keys. A key is required, or has a default that stands in when it is absent.
Keys that the record does not know are either ignored or, where they are forbidden, faults of their
own, which come after those of the known keys and in the order of the object.
-/
namespace ApiDelta.Schema

abbrev Fields := List (String × Json)

variable {α : Type}

/-- The value under a key that must be present. -/
def required (fields : Fields) (key : String) (check : Json → Checked α) : Checked α :=
  match fields.lookup key with
  | some value => (check value).under (.key key)
  | none => .faulty [⟨[.key key], .missing⟩]

/-- The value under a key, or the default if the key is absent. -/
def optional (fields : Fields) (key : String) (default : α) (check : Json → Checked α) :
    Checked α :=
  match fields.lookup key with
  | some value => (check value).under (.key key)
  | none => .sound default

/-- The faults for keys that are not among the known ones. -/
def extraFaults (known : List String) (fields : Fields) : List Fault :=
  (fields.filter fun field => !known.contains field.1).map fun field => ⟨[.key field.1], .extraKey⟩

def noExtras (known : List String) (fields : Fields) : Checked Unit :=
  match extraFaults known fields with
  | [] => .sound ()
  | faults => .faulty faults

/-- A record that permits no other keys than its own. A key with a surrogate in it is ill-formed, and
then nothing else is said about the record. -/
def closed (known : List String) (check : Fields → Checked α) (fields : Fields) : Checked α :=
  if fields.all fun field => Text.isWellFormed field.1 then
    (check fields).map (fun value (_ : Unit) => value) |>.apply (noExtras known fields)
  else .fault .illFormedText

/-- An object holding a record that is called `name`. -/
def record (name : String) (check : Fields → Checked α) : Json → Checked α
  | .object fields => check fields
  | _ => .fault (.notRecord name)

/-- A choice between records. The text under the discriminating key names the alternative, and faults
inside are located under that name. -/
def choice (discriminator : String) (alternatives : List (String × (Fields → Checked α))) :
    Json → Checked α
  | .object fields =>
    match fields.lookup discriminator with
    | none => .fault (.tagAbsent discriminator)
    | some tag =>
      let unknown (shown : String) : Checked α :=
        .fault (.tagUnknown discriminator shown (alternatives.map Prod.fst))
      match tag with
      | .text word =>
        match alternatives.lookup word with
        | some check => (check fields).under (.key word)
        | none => unknown word
      | other => unknown other.shown
  | _ => .fault .notChoice

end ApiDelta.Schema
