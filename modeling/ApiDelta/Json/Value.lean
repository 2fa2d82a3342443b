import ApiDelta.Number.Binary64
import ApiDelta.Text.Quoted

/-!
JSON values. Whole numbers are unbounded and kept apart from binary ones, and an object keeps its keys
in the order of the text it was read from.
-/
namespace ApiDelta

inductive Json
  | null
  | bool (value : Bool)
  | int (value : Int)
  | real (value : Binary64)
  | text (value : String)
  | array (items : List Json)
  | object (fields : List (String × Json))
  deriving Repr, Inhabited

namespace Json

/-- Sets a key of an object: a new key goes last, a known one keeps its place. -/
def put (fields : List (String × Json)) (key : String) (value : Json) : List (String × Json) :=
  if fields.any (·.1 == key) then
    fields.map fun field => if field.1 == key then (key, value) else field
  else fields ++ [(key, value)]

/-- The object with the given pairs. The last value of a key wins, at the place of its first. -/
def ofPairs (pairs : List (String × Json)) : Json :=
  .object (pairs.foldl (fun fields pair => put fields pair.1 pair.2) [])

/-- Lays one object over another: its values win, objects on both sides are merged key by key. -/
def overlay : Json → Json → Json
  | .object below, .object above => .object (overlayFields below above)
  | _, above => above
where
  overlayFields (below : List (String × Json)) : List (String × Json) → List (String × Json)
  | [] => below
  | (key, value) :: rest =>
    let merged := match below.lookup key with
      | some old => overlay old value
      | none => value
    overlayFields (put below key merged) rest

def ofTexts (texts : List String) : Json :=
  .array (texts.map .text)

def ofTextOption : Option String → Json
  | some value => .text value
  | none => .null

end Json

end ApiDelta
