import ApiDelta.Schema.Record
import ApiDelta.Schema.Scalar

/-!
What functions and methods are called with: parameters, result, generic parameters, and the header of
qualifiers before the keyword. Extracted declarations and public items share these parts.
-/
namespace ApiDelta

structure Parameter where
  name : String
  type : String
  deriving DecidableEq, Repr

structure Header where
  isConst : Bool := false
  isAsync : Bool := false
  isUnsafe : Bool := false
  abi : String := "Rust"
  deriving DecidableEq, Repr

structure Callable where
  params : List Parameter
  output : Option String
  generics : List String
  header : Header
  deriving DecidableEq, Repr

namespace Parameter

open Schema

def check (name : String) : Json → Checked Parameter :=
  record name <| closed ["name", "type"] fun fields =>
    mk <$> required fields "name" text <*> required fields "type" text

def toJson (p : Parameter) : Json :=
  .object [("name", .text p.name), ("type", .text p.type)]

end Parameter

namespace Header

open Schema

def check (name : String) : Json → Checked Header :=
  record name <| closed ["is_const", "is_async", "is_unsafe", "abi"] fun fields =>
    mk <$> optional fields "is_const" false boolean
      <*> optional fields "is_async" false boolean
      <*> optional fields "is_unsafe" false boolean
      <*> optional fields "abi" "Rust" text

def toJson (h : Header) : Json :=
  .object [("is_const", .bool h.isConst), ("is_async", .bool h.isAsync),
    ("is_unsafe", .bool h.isUnsafe), ("abi", .text h.abi)]

/-- The qualifiers before the keyword, each followed by a space. The native calling convention goes
without saying. -/
def qualifiers (h : Header) : String :=
  (if h.isConst then "const " else "") ++ (if h.isAsync then "async " else "") ++
    (if h.isUnsafe then "unsafe " else "") ++
    (if h.abi = "Rust" then "" else "extern \"" ++ h.abi ++ "\" ")

end Header

/-- Generic parameters in angle brackets, or nothing if there are none. -/
def genericsText (generics : List String) : String :=
  if generics.isEmpty then "" else "<" ++ String.intercalate ", " generics ++ ">"

/-- A text after a lead, or nothing if the text is absent or empty. -/
def trailing (lead : String) : Option String → String
  | none => ""
  | some value => if value = "" then "" else lead ++ value

namespace Callable

def signature (c : Callable) (name : String) : String :=
  let params := c.params.map fun p => p.name ++ ": " ++ p.type
  c.header.qualifiers ++ "fn " ++ name ++ genericsText c.generics ++
    "(" ++ String.intercalate ", " params ++ ")" ++ trailing " -> " c.output

end Callable

end ApiDelta
