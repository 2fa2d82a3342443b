/-!
Texts by their code points. A file can spell a surrogate that has no partner, for which there is no
character, and texts with such surrogates are carried along like any other. A string holds a surrogate
as two characters: a mark, U+D7FF, and a stand-in from the last 2048 characters, U+10F800 to U+10FFFF.
Where a mark and a stand-in come next to each other in their own right, a spacer, U+10F7FF, is held
between them, and one spacer more than there is if there are spacers between them already. Everything
else is held as it is. So each sequence of code points is held by exactly one string, and strings are
ordered by character as what they hold is by code point.
-/
namespace ApiDelta.Text.CodePoints

def isSurrogate (code : Nat) : Bool :=
  decide (0xD800 ≤ code ∧ code < 0xE000)

/-- A number that is a character or a surrogate. -/
def isCodePoint (code : Nat) : Bool :=
  decide (code < 0x110000)

def markCode : Nat := 0xD7FF

def spacerCode : Nat := 0x10F7FF

def firstStandIn : Nat := 0x10F800

def isStandIn (code : Nat) : Bool :=
  decide (firstStandIn ≤ code ∧ code < 0x110000)

def mark : Char := Char.ofNat markCode

def spacer : Char := Char.ofNat spacerCode

/-- The character that stands for a surrogate after a mark. -/
def standIn (surrogate : Nat) : Char :=
  Char.ofNat (firstStandIn + (surrogate - 0xD800))

/-- Whether a stand-in comes next, after spacers at most. -/
def meetsStandIn : List Nat → Bool
  | [] => false
  | code :: rest => isStandIn code || (code == spacerCode && meetsStandIn rest)

/-- Puts a code point before some characters. -/
def hold (code : Nat) (chars : List Char) : List Char :=
  if isSurrogate code then mark :: standIn code :: chars
  else if code = markCode ∧ meetsStandIn (chars.map Char.toNat) then mark :: spacer :: chars
  else Char.ofNat code :: chars

/-- The characters that hold some code points. -/
def pack (codes : List Nat) : List Char :=
  codes.foldr hold []

/-- Puts a mark before some code points. It may make a surrogate of the first, or use it up. -/
def putMark : List Nat → List Nat
  | [] => [markCode]
  | code :: rest =>
    if isStandIn code then (code - firstStandIn + 0xD800) :: rest
    else if code = spacerCode ∧ meetsStandIn rest then markCode :: rest
    else markCode :: code :: rest

/-- Puts a character before some code points. -/
def put (c : Char) (codes : List Nat) : List Nat :=
  if c = mark then putMark codes else c.toNat :: codes

/-- The code points that some characters hold. -/
def unpack (chars : List Char) : List Nat :=
  chars.foldr put []

end ApiDelta.Text.CodePoints

namespace ApiDelta.Text

open CodePoints

def codePoints (text : String) : List Nat :=
  unpack text.toList

/-- The text with the given code points. -/
def ofCodePoints (codes : List Nat) : String :=
  String.ofList (pack codes)

/-- Whether every code point of a text is a character. -/
def isWellFormed (text : String) : Bool :=
  !(codePoints text).any isSurrogate

/-- A text in which each surrogate has given way to three replacement characters, one for each octet
that it would take. -/
def withReplacements (text : String) : String :=
  ofCodePoints ((codePoints text).flatMap fun code =>
    if isSurrogate code then List.replicate 3 0xFFFD else [code])

end ApiDelta.Text
