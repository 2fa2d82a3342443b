import ApiDelta.Json.Value
import ApiDelta.Number.Shortest

/-!
The canonical text of a JSON value: keys in code point order at every level, no white space, and only
those characters escaped that a string may not hold as they are. Values that differ in the order of
keys alone have the same text, and reading the text gives the value back with its keys in order.
-/
namespace ApiDelta.Json

/-- The code points of plain characters. -/
def plainCodes (chars : List Char) : List Nat :=
  chars.map Char.toNat

def wordCodes (word : String) : List Nat :=
  plainCodes word.toList

/-- One code point inside a string. -/
def escapeCode (code : Nat) : List Nat :=
  if code = 0x22 then wordCodes "\\\""
  else if code = 0x5C then wordCodes "\\\\"
  else if code = 0x0A then wordCodes "\\n"
  else if code = 0x0D then wordCodes "\\r"
  else if code = 0x09 then wordCodes "\\t"
  else if code = 0x08 then wordCodes "\\b"
  else if code = 0x0C then wordCodes "\\f"
  else if code < 0x20 then wordCodes "\\u" ++ plainCodes (Text.hexDigits 4 code)
  else [code]

def stringCodes (text : String) : List Nat :=
  wordCodes "\"" ++ (Text.codePoints text).flatMap escapeCode ++ wordCodes "\""

def intCodes (value : Int) : List Nat :=
  wordCodes (if value < 0 then "-" else "") ++ plainCodes (Nat.toDigits 10 value.natAbs)

/-- The parts with commas between them. -/
def commaSeparated (parts : List (List Nat)) : List Nat :=
  List.intercalate (wordCodes ",") parts

mutual

/-- The code points of the canonical text. -/
def canonicalCodes : Json → List Nat
  | .null => wordCodes "null"
  | .bool true => wordCodes "true"
  | .bool false => wordCodes "false"
  | .int value => intCodes value
  | .real value => wordCodes (value.text "NaN" "Infinity")
  | .text value => stringCodes value
  | .array items => wordCodes "[" ++ commaSeparated (itemCodes items) ++ wordCodes "]"
  | .object fields =>
    let sorted := (fieldCodes fields).mergeSort fun a b => decide (a.1 ≤ b.1)
    wordCodes "\x7b" ++ commaSeparated (sorted.map Prod.snd) ++ wordCodes "\x7d"

def itemCodes : List Json → List (List Nat)
  | [] => []
  | item :: rest => canonicalCodes item :: itemCodes rest

/-- The text of each field beside its key, by which the fields are then sorted. -/
def fieldCodes : List (String × Json) → List (String × List Nat)
  | [] => []
  | (key, value) :: rest =>
    (key, stringCodes key ++ wordCodes ":" ++ canonicalCodes value) :: fieldCodes rest

end

/-- The canonical text. -/
def canonicalText (value : Json) : String :=
  Text.ofCodePoints (canonicalCodes value)

end ApiDelta.Json
