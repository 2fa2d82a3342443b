import ApiDelta.Json.Value

/-!
Faults: the places where a JSON value departs from a schema. A fault has a location, the keys and
indexes that lead to the value at fault, and a reason. A reason has a short tag for programs and a
message for people.
-/
namespace ApiDelta.Schema

inductive Step
  | key (name : String)
  | index (position : Nat)
  deriving DecidableEq, Repr

/-- Why a value does not fit. `instanceOf` names the record that was wanted; the last three concern a
choice between records by the text under a discriminating key. -/
inductive Reason
  | missing
  | extraKey
  | notText
  | illFormedText
  | notInteger
  | unreadableInteger
  | fractionalInteger
  | infiniteInteger
  | hugeInteger
  | below (bound : Int)
  | notBoolean
  | unreadableBoolean
  | notList
  | notTuple
  | notDictionary
  | notOneOf (options : List String)
  | notMember (options : List String)
  | notRecord (instanceOf : String)
  | notChoice
  | tagAbsent (discriminator : String)
  | tagUnknown (discriminator shown : String) (tags : List String)
  deriving DecidableEq, Repr

structure Fault where
  location : List Step
  reason : Reason
  deriving DecidableEq, Repr

def enclosed (word : String) : String :=
  "'" ++ word ++ "'"

/-- The options in apostrophes, with commas between them and `or` before the last. -/
def alternatives (options : List String) : String :=
  match (options.map enclosed).reverse with
  | [] => ""
  | [only] => only
  | last :: earlier => String.intercalate ", " earlier.reverse ++ " or " ++ last

namespace Reason

def tag : Reason → String
  | .missing => "missing"
  | .extraKey => "extra_forbidden"
  | .notText => "string_type"
  | .illFormedText => "string_unicode"
  | .notInteger => "int_type"
  | .unreadableInteger => "int_parsing"
  | .fractionalInteger => "int_from_float"
  | .infiniteInteger => "finite_number"
  | .hugeInteger => "int_parsing_size"
  | .below _ => "greater_than_equal"
  | .notBoolean => "bool_type"
  | .unreadableBoolean => "bool_parsing"
  | .notList => "list_type"
  | .notTuple => "tuple_type"
  | .notDictionary => "dict_type"
  | .notOneOf _ => "literal_error"
  | .notMember _ => "enum"
  | .notRecord _ => "model_type"
  | .notChoice => "model_attributes_type"
  | .tagAbsent _ => "union_tag_not_found"
  | .tagUnknown .. => "union_tag_invalid"

def message : Reason → String
  | .missing => "Field required"
  | .extraKey => "Extra inputs are not permitted"
  | .notText => "Input should be a valid string"
  | .illFormedText =>
    "Input should be a valid string, unable to parse raw data as a unicode string"
  | .notInteger => "Input should be a valid integer"
  | .unreadableInteger => "Input should be a valid integer, unable to parse string as an integer"
  | .fractionalInteger => "Input should be a valid integer, got a number with a fractional part"
  | .infiniteInteger => "Input should be a finite number"
  | .hugeInteger => "Unable to parse input string as an integer, exceeded maximum size"
  | .below bound => s!"Input should be greater than or equal to {bound}"
  | .notBoolean => "Input should be a valid boolean"
  | .unreadableBoolean => "Input should be a valid boolean, unable to interpret input"
  | .notList => "Input should be a valid list"
  | .notTuple => "Input should be a valid tuple"
  | .notDictionary => "Input should be a valid dictionary"
  | .notOneOf options => "Input should be " ++ alternatives options
  | .notMember options => "Input should be " ++ alternatives options
  | .notRecord instanceOf => "Input should be a valid dictionary or instance of " ++ instanceOf
  | .notChoice => "Input should be a valid dictionary or object to extract fields from"
  | .tagAbsent discriminator =>
    "Unable to extract tag using discriminator " ++ enclosed discriminator
  | .tagUnknown discriminator shown tags =>
    s!"Input tag '{shown}' found using {enclosed discriminator} does not match any of the expected " ++
      "tags: " ++ String.intercalate ", " (tags.map enclosed)

end Reason

namespace Fault

/-- The same fault seen from one step further out. -/
def under (step : Step) (fault : Fault) : Fault :=
  { fault with location := step :: fault.location }

def here (reason : Reason) : Fault :=
  ⟨[], reason⟩

end Fault

/-- The heading over the faults of a value that should have been `wanted`. -/
def heading (count : Nat) (wanted : String) : String :=
  if count = 1 then s!"1 validation error for {wanted}"
  else s!"{count} validation errors for {wanted}"

end ApiDelta.Schema
