import ApiDelta.Text.CodePoints
import ApiDelta.Text.Printable

/-!
Quoted texts, as messages show them. The quote is an apostrophe unless the text holds an apostrophe
and no double quote. A backslash stands before the quote in use and before itself; line ends, the
tab and unprintable code points are written as escapes; everything else is written as it is.
Quoting works on code points, so that a surrogate without its partner is written as an escape, too.
-/
namespace ApiDelta.Text

/-- A number in lower-case hexadecimal digits, at least `width` of them. -/
def hexDigits (width n : Nat) : List Char :=
  let digits := Nat.toDigits 16 n
  List.replicate (width - digits.length) '0' ++ digits

def apostrophe : Nat := 0x27

def doubleQuote : Nat := 0x22

def backslash : Nat := 0x5C

/-- The quote that a text is put between. -/
def quoteFor (codes : List Nat) : Nat :=
  if codes.contains apostrophe && !codes.contains doubleQuote then doubleQuote else apostrophe

/-- The escape for a code point: its number, in two, four or eight digits. -/
def escapeCode (code : Nat) : List Char :=
  if code < 0x100 then '\\' :: 'x' :: hexDigits 2 code
  else if code < 0x10000 then '\\' :: 'u' :: hexDigits 4 code
  else '\\' :: 'U' :: hexDigits 8 code

/-- One code point inside the quotes. -/
def quoteCode (quote code : Nat) : List Char :=
  if code = quote ∨ code = backslash then ['\\', Char.ofNat code]
  else if code = 0x0A then ['\\', 'n']
  else if code = 0x0D then ['\\', 'r']
  else if code = 0x09 then ['\\', 't']
  else if isPrintable code then [Char.ofNat code]
  else escapeCode code

/-- A sequence of code points in quotes. -/
def quotedCodes (codes : List Nat) : String :=
  let quote := quoteFor codes
  String.ofList (Char.ofNat quote :: codes.flatMap (quoteCode quote) ++ [Char.ofNat quote])

/-- A text in quotes. -/
def quoted (text : String) : String :=
  quotedCodes (codePoints text)

/-- What is printed for a text: its characters, and an escape in the place of each surrogate. -/
def printed (text : String) : String :=
  String.ofList ((codePoints text).flatMap fun code =>
    if CodePoints.isSurrogate code then escapeCode code else [Char.ofNat code])

end ApiDelta.Text
