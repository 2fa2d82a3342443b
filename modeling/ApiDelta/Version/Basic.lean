import ApiDelta.Schema.Record
import ApiDelta.Schema.Scalar
import ApiDelta.Text.Digit
import ApiDelta.Text.Quoted

/-!
Semantic versions: three numbers, a pre-release and build metadata. The written form has the numbers
with points between them, the pre-release after a hyphen and the build metadata after a plus sign.
Reading permits a `v` before the numbers and blanks around the whole. A number is a zero alone, or
begins with an ASCII digit from 1 to 9 and goes on with decimal digits of any script.
-/
namespace ApiDelta

structure Version where
  major : Nat
  minor : Nat
  patch : Nat
  pre : Option String := none
  build : Option String := none
  deriving DecidableEq, Repr

namespace Version

/-- The written form. An empty pre-release or build is not written. -/
def text (v : Version) : String :=
  s!"{v.major}.{v.minor}.{v.patch}" ++ mark "-" v.pre ++ mark "+" v.build
where
  mark (sign : String) : Option String → String
  | none => ""
  | some value => if value = "" then "" else sign ++ value

/-- The characters of an identifier: ASCII letters, digits and the hyphen. -/
def isIdentifierChar (c : Char) : Bool :=
  c.isAlphanum || c = '-'

/-- Dot-separated identifiers, none of which is empty. -/
def isIdentifierList (text : List Char) : Bool :=
  (text.splitOn '.').all fun identifier => !identifier.isEmpty && identifier.all isIdentifierChar

/-- Reads a number and gives back what follows it. -/
def readNumber? : List Char → Option (Nat × List Char)
  | '0' :: rest => some (0, rest)
  | first :: rest =>
    if '1'.toNat ≤ first.toNat ∧ first.toNat ≤ '9'.toNat then
      let digits := first :: rest.takeWhile Text.isDecimal
      (Text.decimalNumber? digits).map fun value => (value, rest.dropWhile Text.isDecimal)
    else none
  | [] => none

/-- Takes a point off the front. -/
def skipPoint? : List Char → Option (List Char)
  | '.' :: rest => some rest
  | _ => none

/-- Reads build metadata to the end of the text. -/
def readBuild? : List Char → Option (Option String)
  | [] => some none
  | '+' :: build => if isIdentifierList build then some (some (String.ofList build)) else none
  | _ => none

/-- Reads what follows the numbers. -/
def readLabels? : List Char → Option (Option String × Option String)
  | '-' :: rest =>
    let pre := rest.takeWhile (· ≠ '+')
    if isIdentifierList pre then
      (readBuild? (rest.dropWhile (· ≠ '+'))).map fun build => (some (String.ofList pre), build)
    else none
  | rest => (readBuild? rest).map fun build => (none, build)

/-- Reads a version that takes up the whole text. -/
def readCore? (text : List Char) : Option Version := do
  let (major, rest) ← readNumber? text
  let rest ← skipPoint? rest
  let (minor, rest) ← readNumber? rest
  let rest ← skipPoint? rest
  let (patch, rest) ← readNumber? rest
  let (pre, build) ← readLabels? rest
  return ⟨major, minor, patch, pre, build⟩

def skipLetter : List Char → List Char
  | 'v' :: rest => rest
  | text => text

/-- The version that a text denotes. -/
def parse? (text : String) : Option Version :=
  readCore? (skipLetter (Text.trim Text.isBlank text.toList))

/-- What is said of a text that denotes no version. -/
def refusal (text : String) : String :=
  s!"Invalid semantic version {Text.quoted text}: expected MAJOR.MINOR.PATCH"

open Schema

def check : Json → Checked Version :=
  record "Version" <| closed ["major", "minor", "patch", "pre", "build"] fun fields =>
    mk <$> required fields "major" natural
      <*> required fields "minor" natural
      <*> required fields "patch" natural
      <*> optional fields "pre" none textOrNull
      <*> optional fields "build" none textOrNull

end Version

end ApiDelta
