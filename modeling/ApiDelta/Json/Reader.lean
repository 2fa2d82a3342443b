import ApiDelta.Json.Value
import ApiDelta.Text.Digit

/-!
Reading JSON. The reader takes the texts of the JSON grammar, and besides them the words `NaN`,
`Infinity` and `-Infinity` as numbers. A refusal names what was expected and the place: the number of
characters before it, its line, and its column. A control character may not stand in a string, and
white space is the space, the tab, and the two line ends.

Every reading function takes the characters that are left and gives back those it did not use; a
refusal carries the characters from the refused place on.
-/
namespace ApiDelta.Json

inductive Expectation
  | value
  | propertyName
  | colon
  | comma
  | nothingMore
  | stringEnd
  | noControl
  | escape
  | codeEscape
  | noMark
  deriving DecidableEq, Repr

def Expectation.message : Expectation → String
  | .value => "Expecting value"
  | .propertyName => "Expecting property name enclosed in double quotes"
  | .colon => "Expecting ':' delimiter"
  | .comma => "Expecting ',' delimiter"
  | .nothingMore => "Extra data"
  | .stringEnd => "Unterminated string starting at"
  | .noControl => "Invalid control character at"
  | .escape => "Invalid \\escape"
  | .codeEscape => "Invalid \\uXXXX escape"
  | .noMark => "Unexpected UTF-8 BOM (decode using utf-8-sig)"

/-- A refused text: what was expected, after which part of the text. -/
structure Refusal where
  expected : Expectation
  before : List Char
  deriving DecidableEq, Repr

namespace Refusal

def offset (r : Refusal) : Nat :=
  r.before.length

def line (r : Refusal) : Nat :=
  r.before.count '\n' + 1

def column (r : Refusal) : Nat :=
  (r.before.reverse.takeWhile (· ≠ '\n')).length + 1

def message (r : Refusal) : String :=
  s!"{r.expected.message}: line {r.line} column {r.column} (char {r.offset})"

end Refusal

/-- What was expected, and the characters from the refused place on. -/
abbrev Refused := Expectation × List Char

def isGap (c : Char) : Bool :=
  c = ' ' || c = '\t' || c = '\n' || c = '\r'

def skipGap (input : List Char) : List Char :=
  input.dropWhile isGap

/-! ## Strings -/

def hexValue? (c : Char) : Option Nat :=
  let n := c.toNat
  if '0'.toNat ≤ n ∧ n ≤ '9'.toNat then some (n - '0'.toNat)
  else if 'a'.toNat ≤ n ∧ n ≤ 'f'.toNat then some (n - 'a'.toNat + 10)
  else if 'A'.toNat ≤ n ∧ n ≤ 'F'.toNat then some (n - 'A'.toNat + 10)
  else none

def hexNumber? (digits : List Char) : Option Nat :=
  digits.foldlM (fun value c => (hexValue? c).map (value * 16 + ·)) 0

/-- The character that a one-letter escape stands for. -/
def simpleEscape? : Char → Option Char
  | '"' => some '"'
  | '\\' => some '\\'
  | '/' => some '/'
  | 'b' => some '\x08'
  | 'f' => some '\x0c'
  | 'n' => some '\n'
  | 'r' => some '\r'
  | 't' => some '\t'
  | _ => none

/-- Reads to the closing quote of the string that begins at `opening`. The result is in code points,
the latest first in `done`; a surrogate spelled by an escape is still on its own. -/
def readCodes (opening : List Char) (done : List Nat) :
    List Char → Except Refused (List Nat × List Char)
  | [] => .error (.stringEnd, opening)
  | '"' :: rest => .ok (done.reverse, rest)
  | '\\' :: 'u' :: a :: b :: c :: d :: next :: rest =>
    match hexNumber? [a, b, c, d] with
    | some code => readCodes opening (code :: done) (next :: rest)
    | none => .error (.codeEscape, 'u' :: a :: b :: c :: d :: next :: rest)
  | '\\' :: 'u' :: rest => .error (.codeEscape, 'u' :: rest)
  | '\\' :: c :: rest =>
    match simpleEscape? c with
    | some meant => readCodes opening (meant.toNat :: done) rest
    | none => .error (.escape, '\\' :: c :: rest)
  | ['\\'] => .error (.stringEnd, opening)
  | c :: rest =>
    if c.toNat < 0x20 then .error (.noControl, c :: rest)
    else readCodes opening (c.toNat :: done) rest

def isHighSurrogate (code : Nat) : Bool :=
  0xD800 ≤ code && code < 0xDC00

def isLowSurrogate (code : Nat) : Bool :=
  0xDC00 ≤ code && code < 0xE000

/-- Joins each high surrogate with a low one right after it. -/
def joinSurrogates : List Nat → List Nat
  | high :: low :: rest =>
    if isHighSurrogate high && isLowSurrogate low then
      (0x10000 + (high - 0xD800) * 0x400 + (low - 0xDC00)) :: joinSurrogates rest
    else high :: joinSurrogates (low :: rest)
  | codes => codes

/-- Reads a string whose opening quote has been taken; `opening` starts with that quote. -/
def readString (opening rest : List Char) : Except Refused (String × List Char) :=
  (readCodes opening [] rest).map fun (codes, left) =>
    (Text.ofCodePoints (joinSurrogates codes), left)

/-! ## Numbers -/

/-- The run of digits at the front, and the rest. -/
def spanDigits (input : List Char) : List Char × List Char :=
  (input.takeWhile Text.isAsciiDigit, input.dropWhile Text.isAsciiDigit)

/-- A whole part: a zero alone, or digits that begin with none. -/
def readWhole? : List Char → Option (List Char × List Char)
  | '0' :: rest => some (['0'], rest)
  | input =>
    let (digits, rest) := spanDigits input
    if digits.isEmpty then none else some (digits, rest)

/-- The digits after a point, if a point with digits after it comes next. -/
def readFraction : List Char → Option (List Char) × List Char
  | '.' :: rest =>
    let (digits, left) := spanDigits rest
    if digits.isEmpty then (none, '.' :: rest) else (some digits, left)
  | input => (none, input)

/-- The power after an exponent mark, if a mark with digits after it comes next. -/
def readPower (input : List Char) : Option Int × List Char :=
  match input with
  | [] => (none, input)
  | mark :: rest =>
    if mark = 'e' ∨ mark = 'E' then
      let (negative, unsigned) := match rest with
        | '-' :: r => (true, r)
        | '+' :: r => (false, r)
        | r => (false, r)
      let (digits, left) := spanDigits unsigned
      if digits.isEmpty then (none, input)
      else
        let power : Int := Nat.ofDigitChars 10 digits 0
        (some (if negative then -power else power), left)
    else (none, input)

/-- Reads a number. One with neither a fraction nor a power is whole. -/
def readNumber (input : List Char) : Except Refused (Json × List Char) :=
  let (negative, unsigned) := match input with
    | '-' :: rest => (true, rest)
    | rest => (false, rest)
  match readWhole? unsigned with
  | none => .error (.value, input)
  | some (whole, rest) =>
    let (fraction, rest) := readFraction rest
    let (power, rest) := readPower rest
    match fraction, power with
    | none, none =>
      let value : Int := Nat.ofDigitChars 10 whole 0
      .ok (.int (if negative then -value else value), rest)
    | _, _ =>
      let places := fraction.getD []
      let digits := Nat.ofDigitChars 10 (whole ++ places) 0
      .ok (.real (.ofDecimal negative digits (power.getD 0 - places.length)), rest)

/-! ## Values -/

mutual

/-- Reads one value. The allowance bounds the depth of calls: each character takes part in at most
two of them, so twice the length of the text is always enough. -/
def readValue : Nat → List Char → Except Refused (Json × List Char)
  | 0, input => .error (.value, input)
  | allowance + 1, input =>
    match input with
    | '"' :: rest => (readString input rest).map fun (value, left) => (.text value, left)
    | '{' :: rest =>
      match skipGap rest with
      | '}' :: left => .ok (.object [], left)
      | fields => readFields allowance [] fields
    | '[' :: rest =>
      match skipGap rest with
      | ']' :: left => .ok (.array [], left)
      | items => readItems allowance [] items
    | 'n' :: 'u' :: 'l' :: 'l' :: rest => .ok (.null, rest)
    | 't' :: 'r' :: 'u' :: 'e' :: rest => .ok (.bool true, rest)
    | 'f' :: 'a' :: 'l' :: 's' :: 'e' :: rest => .ok (.bool false, rest)
    | 'N' :: 'a' :: 'N' :: rest => .ok (.real .nan, rest)
    | 'I' :: 'n' :: 'f' :: 'i' :: 'n' :: 'i' :: 't' :: 'y' :: rest =>
      .ok (.real (.infinite false), rest)
    | '-' :: 'I' :: 'n' :: 'f' :: 'i' :: 'n' :: 'i' :: 't' :: 'y' :: rest =>
      .ok (.real (.infinite true), rest)
    | _ => readNumber input

/-- Reads the items of an array from the start of one of them, after those in `done`, the latest
first. -/
def readItems : Nat → List Json → List Char → Except Refused (Json × List Char)
  | 0, _, input => .error (.value, input)
  | allowance + 1, done, input =>
    match readValue allowance input with
    | .error refused => .error refused
    | .ok (item, rest) =>
      match skipGap rest with
      | ']' :: left => .ok (.array (item :: done).reverse, left)
      | ',' :: left => readItems allowance (item :: done) (skipGap left)
      | left => .error (.comma, left)

/-- Reads the fields of an object from the start of one of them, after those in `done`, the latest
first. -/
def readFields : Nat → List (String × Json) → List Char → Except Refused (Json × List Char)
  | 0, _, input => .error (.value, input)
  | allowance + 1, done, input =>
    match input with
    | '"' :: rest =>
      match readString input rest with
      | .error refused => .error refused
      | .ok (key, rest) =>
        match skipGap rest with
        | ':' :: rest =>
          match readValue allowance (skipGap rest) with
          | .error refused => .error refused
          | .ok (value, rest) =>
            let done := (key, value) :: done
            match skipGap rest with
            | '}' :: left => .ok (ofPairs done.reverse, left)
            | ',' :: left => readFields allowance done (skipGap left)
            | left => .error (.comma, left)
        | left => .error (.colon, left)
    | _ => .error (.propertyName, input)

end

/-- Reads a text that is one value, with white space around it at most. -/
def read (input : List Char) : Except Refusal Json :=
  let refuse (refused : Refused) : Refusal :=
    ⟨refused.1, input.take (input.length - refused.2.length)⟩
  if input.head? = some '\uFEFF' then .error ⟨.noMark, []⟩
  else
    match readValue (2 * input.length + 2) (skipGap input) with
    | .error refused => .error (refuse refused)
    | .ok (value, rest) =>
      match skipGap rest with
      | [] => .ok value
      | left => .error (refuse (.nothingMore, left))

end ApiDelta.Json
