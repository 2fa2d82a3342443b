/-!
Binary floating point numbers of 64 bits, held as what they denote: a sign, a mantissa below 2^53 and
a power of two not below -1074. Reading a decimal gives the nearest such number, an exact tie going
to the even mantissa. All arithmetic is on whole numbers, so every step is exact but the one
rounding.
-/
namespace ApiDelta

inductive Binary64
  | nan
  | infinite (negative : Bool)
  | finite (negative : Bool) (mantissa : Nat) (exponent : Int)
  deriving DecidableEq, Repr

namespace Binary64

def powerOfTwo (n : Nat) : Nat :=
  Nat.pow 2 n

def powerOfTen (n : Nat) : Nat :=
  Nat.pow 10 n

/-- The least mantissa of the numbers whose exponent is not the least. -/
def leastNormal : Nat := powerOfTwo 52

/-- What every mantissa is below. -/
def mantissaBound : Nat := powerOfTwo 53

/-- The least exponent, that of zero and of the numbers nearest to it. -/
def leastExponent : Int := -1074

/-- The exponent of the greatest finite numbers. -/
def greatestExponent : Int := 971

/-- The quotient of two numbers rounded to the nearest whole number, ties to even. -/
def roundedQuotient (numerator denominator : Nat) : Nat :=
  let quotient := numerator / denominator
  let twice := 2 * (numerator % denominator)
  if twice > denominator ∨ (twice = denominator ∧ quotient % 2 = 1) then quotient + 1 else quotient

/-- Brings a fraction to the scale of a power of two: the result divided is
`numerator / (denominator · 2^exponent)`. -/
def scaled (numerator denominator : Nat) (exponent : Int) : Nat × Nat :=
  if 0 ≤ exponent then (numerator, denominator * powerOfTwo exponent.toNat)
  else (numerator * powerOfTwo (-exponent).toNat, denominator)

/-- The nearest number to a positive fraction. -/
def nearest (negative : Bool) (numerator denominator : Nat) : Binary64 :=
  let estimate : Int := (numerator.log2 : Int) - denominator.log2 - 53
  let (n, d) := scaled numerator denominator estimate
  let exponent := max leastExponent (if n / d < mantissaBound then estimate else estimate + 1)
  let (n, d) := scaled numerator denominator exponent
  let mantissa := roundedQuotient n d
  let (mantissa, exponent) :=
    if mantissa = mantissaBound then (leastNormal, exponent + 1) else (mantissa, exponent)
  if exponent > greatestExponent then .infinite negative else .finite negative mantissa exponent

/-- The nearest number to `digits · 10^power`. Far outside the range of magnitudes the answer is
known without computing the power. -/
def ofDecimal (negative : Bool) (digits : Nat) (power : Int) : Binary64 :=
  let magnitude := power + (Nat.toDigits 10 digits).length
  if digits = 0 ∨ magnitude < -400 then .finite negative 0 leastExponent
  else if magnitude > 400 then .infinite negative
  else if 0 ≤ power then nearest negative (digits * powerOfTen power.toNat) 1
  else nearest negative digits (powerOfTen (-power).toNat)

def isFinite : Binary64 → Bool
  | .finite .. => true
  | _ => false

/-- The whole number that a number is, if it is one. -/
def toInt? : Binary64 → Option Int
  | .finite negative mantissa exponent =>
    let signed (n : Nat) : Int := if negative then -(n : Int) else n
    if 0 ≤ exponent then some (signed (mantissa * powerOfTwo exponent.toNat))
    else
      let unit := powerOfTwo (-exponent).toNat
      if mantissa % unit = 0 then some (signed (mantissa / unit)) else none
  | _ => none

end Binary64

end ApiDelta
