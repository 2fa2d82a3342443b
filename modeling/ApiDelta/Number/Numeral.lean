import ApiDelta.Text.Blank
import ApiDelta.Text.Digit

/-!
Whole numbers written by hand. White space around a numeral, one plus sign before it, zeros that pad it
on the left, a fraction of zeros, and single underscores among its digits say nothing and are taken
away, in this order. Padding may have underscores in it and may even stand before a minus sign. What is
left has to be the plain form: digits, with a minus sign before them at most.
-/
namespace ApiDelta.Numeral

open Text (isAsciiDigit)

inductive Refusal
  | malformed
  | tooLong
  deriving DecidableEq, Repr

/-- The greatest number of characters in the plain form. -/
def longest : Nat := 4300

/-- Takes a plus sign away. It may not stand before another sign. -/
def withoutPlus? : List Char → Option (List Char)
  | '+' :: '-' :: _ => none
  | '+' :: rest => some rest
  | input => some input

/-- What follows padding that ends in `last`. If only a fraction follows or nothing at all, the last
character of the padding is not padding but the whole part. -/
def afterPadding? (last : Char) : List Char → Option (List Char)
  | [] => some [last]
  | c :: rest =>
    if c = '0' ∨ c = '_' then afterPadding? c rest
    else if c = '.' then some (last :: c :: rest)
    else if c = '-' ∨ isAsciiDigit c then some (c :: rest)
    else none

/-- Takes the padding away. A numeral that begins with neither a digit nor a minus sign has no plain
form. -/
def withoutPadding? : List Char → Option (List Char)
  | [] => none
  | c :: rest =>
    if c = '0' then afterPadding? c rest
    else if c = '-' ∨ isAsciiDigit c then some (c :: rest)
    else none

/-- Takes a fraction away that has a zero at least and nothing but zeros. -/
def withoutFraction (input : List Char) : List Char :=
  match input.dropWhile (· ≠ '.') with
  | _ :: '0' :: zeros => if zeros.all (· = '0') then input.takeWhile (· ≠ '.') else input
  | _ => input

/-- Two underscores in a row. -/
def hasGap : List Char → Bool
  | '_' :: '_' :: _ => true
  | _ :: rest => hasGap rest
  | [] => false

/-- Takes underscores away that are single and inside. -/
def withoutUnderscores (input : List Char) : List Char :=
  if input.head? = some '_' || input.getLast? = some '_' || hasGap input then input
  else input.filter (· ≠ '_')

/-- The plain form of a numeral, if everything else in it says nothing. -/
def plain? (input : List Char) : Option (List Char) :=
  (withoutPlus? (Text.trim Text.isWhiteSpace input)).bind fun unsigned =>
    (withoutPadding? unsigned).map fun unpadded => withoutUnderscores (withoutFraction unpadded)

/-- The number that digits denote, which may have a sign of `width` characters before them. -/
def magnitude (width : Nat) (digits : List Char) : Except Refusal Nat :=
  if width + (digits.takeWhile isAsciiDigit).length > longest then .error .tooLong
  else if digits.isEmpty || !digits.all isAsciiDigit then .error .malformed
  else .ok (Nat.ofDigitChars 10 digits 0)

/-- The number that a plain form denotes. -/
def ofPlain : List Char → Except Refusal Int
  | '-' :: digits => (magnitude 1 digits).map fun n => -(n : Int)
  | digits => (magnitude 0 digits).map fun n => (n : Int)

/-- The whole number that a text denotes. -/
def read (input : List Char) : Except Refusal Int :=
  match plain? input with
  | some form => ofPlain form
  | none => .error .malformed

end ApiDelta.Numeral
