import ApiDelta.Json.Value
import ApiDelta.Number.Shortest

/-!
The notation in which messages show a value: texts quoted as elsewhere in messages, `None`, `True` and
`False` for the three words, and brackets with a space after each comma and colon.
-/
namespace ApiDelta.Json

mutual

/-- A value as messages show it. -/
def shown : Json → String
  | .null => "None"
  | .bool true => "True"
  | .bool false => "False"
  | .int value => toString value
  | .real value => value.text "nan" "inf"
  | .text value => Text.quoted value
  | .array items => "[" ++ String.intercalate ", " (shownItems items) ++ "]"
  | .object fields => "\x7b" ++ String.intercalate ", " (shownFields fields) ++ "\x7d"

def shownItems : List Json → List String
  | [] => []
  | item :: rest => shown item :: shownItems rest

def shownFields : List (String × Json) → List String
  | [] => []
  | (key, value) :: rest => (Text.quoted key ++ ": " ++ shown value) :: shownFields rest

end

end ApiDelta.Json
