import ApiDelta.Number.Binary64

/-!
The shortest decimal that reads back as a given binary number. The numbers that round to `m · 2^q`
fill an interval about it; its ends belong to it exactly if `m` is even. A decimal grid of step
`10^k` meets the interval if and only if one of the two grid points next to the number does, so the
grids are tried from coarse to fine and the first that meets it gives the digits: the nearer of the
two points, the even one if they are equally near.

The text writes a magnitude from 10^-4 up to but not including 10^16 positionally, with at least one
digit after the point, and any other with one digit before the point and an exponent of at least two
digits.
-/
namespace ApiDelta.Binary64

/-- The interval of reals that round to `mantissa · 2^exponent`, in quarters of the unit `2^exponent`.
Below a power of two the neighbour is only half as far away. -/
structure Interval where
  low : Nat
  high : Nat
  closed : Bool

def interval (mantissa : Nat) (exponent : Int) : Interval where
  low :=
    if mantissa = leastNormal ∧ leastExponent < exponent then 4 * mantissa - 1 else 4 * mantissa - 2
  high := 4 * mantissa + 2
  closed := mantissa % 2 = 0

/-- `quarters · 2^(exponent - 2)` and `10^power` brought to a common denominator. -/
def aligned (exponent power : Int) : Nat × Nat :=
  let two := exponent - 2
  (powerOfTwo two.toNat * powerOfTen (-power).toNat,
    powerOfTen power.toNat * powerOfTwo (-two).toNat)

/-- The point of the grid of step `10^power` that reads back as the number, if one does. -/
def gridPoint? (mantissa : Nat) (exponent power : Int) : Option Nat :=
  let (quarter, step) := aligned exponent power
  let range := interval mantissa exponent
  let within (point : Nat) : Bool :=
    if range.closed then
      range.low * quarter ≤ point * step && point * step ≤ range.high * quarter
    else range.low * quarter < point * step && point * step < range.high * quarter
  let value := 4 * mantissa * quarter
  let below := value / step
  let above := below + 1
  match within below, within above with
  | true, true =>
    let down := value - below * step
    let up := above * step - value
    if down < up ∨ (down = up ∧ below % 2 = 0) then some below else some above
  | true, false => some below
  | false, true => some above
  | false, false => none

/-- Tries the grids of step `10^power`, `10^(power - 1)`, and so on. -/
def firstGrid (mantissa : Nat) (exponent : Int) : Nat → Int → Nat × Int
  | 0, power => (0, power)
  | tries + 1, power =>
    match gridPoint? mantissa exponent power with
    | some point => (point, power)
    | none => firstGrid mantissa exponent tries (power - 1)

/-- The shortest decimal `digits · 10^power` of a positive number. The coarsest grid worth trying
has a step just above the number; seventeen digits always suffice. -/
def shortest (mantissa : Nat) (exponent : Int) : Nat × Int :=
  let bits := exponent + mantissa.log2 + 1
  firstGrid mantissa exponent 22 (Int.fdiv (bits * 30103) 100000 + 1)

/-- Places the point in a string of digits so that `point` digits stand before it. -/
def positional (digits : List Char) (point : Int) : List Char :=
  if point ≤ 0 then '0' :: '.' :: List.replicate (-point).toNat '0' ++ digits
  else
    let before := digits.take point.toNat
    let after := digits.drop point.toNat
    before ++ List.replicate (point.toNat - digits.length) '0' ++
      '.' :: (if after.isEmpty then ['0'] else after)

def scientific (digits : List Char) (point : Int) : List Char :=
  let fraction := digits.drop 1
  let power := point - 1
  let magnitude := Nat.toDigits 10 power.natAbs
  digits.take 1 ++ (if fraction.isEmpty then [] else '.' :: fraction) ++
    'e' :: (if power < 0 then '-' else '+') ::
      List.replicate (2 - magnitude.length) '0' ++ magnitude

/-- The text of a magnitude. -/
def magnitudeText (mantissa : Nat) (exponent : Int) : List Char :=
  if mantissa = 0 then ['0', '.', '0']
  else
    let (value, power) := shortest mantissa exponent
    let written := Nat.toDigits 10 value
    let point := power + written.length
    let digits := (written.reverse.dropWhile (· = '0')).reverse
    if -4 < point ∧ point ≤ 16 then positional digits point else scientific digits point

/-- The text of a number, with the given words for what is not finite. -/
def text (nanWord infinityWord : String) : Binary64 → String
  | .nan => nanWord
  | .infinite negative => if negative then "-" ++ infinityWord else infinityWord
  | .finite negative mantissa exponent =>
    String.ofList ((if negative then ['-'] else []) ++ magnitudeText mantissa exponent)

end ApiDelta.Binary64
