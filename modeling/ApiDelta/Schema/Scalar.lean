import ApiDelta.Number.Numeral
import ApiDelta.Schema.Checked

/-!
Scalars as a schema accepts them. Checking is lenient in one direction: a whole number may also come as
a boolean, as a binary number without a fraction, or as a text in decimal notation, and a boolean as
0, 1 or one of a few words. A text must be a text. Where only certain texts are accepted, one with a
surrogate in it is ill-formed.
-/
namespace ApiDelta.Schema

def text : Json → Checked String
  | .text value => .sound value
  | _ => .fault .notText

/-- A text, or null for none. -/
def textOrNull : Json → Checked (Option String)
  | .null => .sound none
  | value => (text value).map some

/-- What is made of a text that has characters only. -/
def ofCharacters {α : Type} (value : String) (made : Checked α) : Checked α :=
  if Text.isWellFormed value then made else .fault .illFormedText

/-! ## Whole numbers -/

/-- What a text that is no whole number is told. -/
def numeralReason : Numeral.Refusal → Reason
  | .malformed => .unreadableInteger
  | .tooLong => .hugeInteger

/-- 2^63, which the magnitude of a whole number must be below if it comes as a binary number. -/
def magnitudeBound : Nat := 9223372036854775808

/-- The whole number that a binary number is. -/
def integerOfReal (value : Binary64) : Checked Int :=
  if !value.isFinite then .fault .infiniteInteger
  else
    match value.toInt? with
    | none => .fault .fractionalInteger
    | some n => if n.natAbs < magnitudeBound then .sound n else .fault .hugeInteger

def integerOfText (value : String) : Checked Int :=
  ofCharacters value <|
    match Numeral.read value.toList with
    | .ok n => .sound n
    | .error refusal => .fault (numeralReason refusal)

def integer : Json → Checked Int
  | .int value => .sound value
  | .bool value => .sound (if value then 1 else 0)
  | .real value => integerOfReal value
  | .text value => integerOfText value
  | _ => .fault .notInteger

/-- A whole number, or null for none. -/
def integerOrNull : Json → Checked (Option Int)
  | .null => .sound none
  | value => (integer value).map some

/-- A whole number that is not negative. -/
def natural (value : Json) : Checked Nat :=
  (integer value).andThen fun n => if 0 ≤ n then .sound n.toNat else .fault (.below 0)

/-! ## Booleans -/

def falseWords : List String := ["0", "off", "f", "false", "n", "no"]

def trueWords : List String := ["1", "on", "t", "true", "y", "yes"]

def booleanOfText (value : String) : Checked Bool :=
  let word := value.map Char.toLower
  ofCharacters value <|
    if trueWords.contains word then .sound true
    else if falseWords.contains word then .sound false
    else .fault .unreadableBoolean

/-- Only whole numbers from -2^63 up to 2^63 - 1 are looked at as booleans. -/
def booleanOfInteger (value : Int) : Checked Bool :=
  if value = 0 then .sound false
  else if value = 1 then .sound true
  else if -magnitudeBound ≤ value ∧ value < magnitudeBound then .fault .unreadableBoolean
  else .fault .notBoolean

def boolean : Json → Checked Bool
  | .bool value => .sound value
  | .int value => booleanOfInteger value
  | .real value =>
    match integerOfReal value with
    | .sound n => booleanOfInteger n
    | .faulty _ => .fault .notBoolean
  | .text value => booleanOfText value
  | _ => .fault .notBoolean

/-! ## Words from a fixed choice -/

/-- One of the words of a table, taken as the value beside it. -/
def literal {α : Type} (table : List (String × α)) : Json → Checked α
  | .text word => ofCharacters word <|
    match table.lookup word with
    | some value => .sound value
    | none => .fault (.notOneOf (table.map Prod.fst))
  | _ => .fault (.notOneOf (table.map Prod.fst))

/-- Like `literal`, for tables that name the members of a type. -/
def member {α : Type} (table : List (String × α)) : Json → Checked α
  | .text word => ofCharacters word <|
    match table.lookup word with
    | some value => .sound value
    | none => .fault (.notMember (table.map Prod.fst))
  | _ => .fault (.notMember (table.map Prod.fst))

/-! ## Sequences -/

/-- A list, its elements checked in order. -/
def listOf {α : Type} (element : Json → Checked α) : Json → Checked (List α)
  | .array items => Checked.all .index element 0 items
  | _ => .fault .notList

/-- A list that stands for a tuple of any length. -/
def tupleOf {α : Type} (element : Json → Checked α) : Json → Checked (List α)
  | .array items => Checked.all .index element 0 items
  | _ => .fault .notTuple

end ApiDelta.Schema
