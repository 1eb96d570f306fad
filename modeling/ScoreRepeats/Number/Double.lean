/-!
# Doubles

The numbers of binary floating point with 53 bits: a whole number of at most 53 bits times a power
of two, the two infinities, and the value that is no number. Results of arithmetic and decimals are
rounded to the nearest double, ties to the one whose last bit is zero (`Double.ofRatio`).
-/

set_option autoImplicit false
set_option relaxedAutoImplicit false

namespace ScoreRepeats

/-- A double. The finite ones are `mantissa · 2 ^ exponent`, with a sign that zero has too. -/
inductive Double
  | finite (negative : Bool) (mantissa : Nat) (exponent : Int)
  | infinite (negative : Bool)
  /-- No number. Those with different marks are told apart. -/
  | notANumber (mark : Nat)
  deriving DecidableEq, Repr

namespace Double

/-- The number of bits of a mantissa. -/
def bits : Nat := 53

/-- The least exponent, that of the numbers nearest to zero. -/
def minExponent : Int := -1074

/-- The greatest exponent. -/
def maxExponent : Int := 971

/-- A quotient rounded to a whole number, a tie to the even one. -/
def roundQuotient (numerator denominator : Nat) : Nat :=
  let quotient := numerator / denominator
  let twice := 2 * (numerator % denominator)
  if twice > denominator || (twice == denominator && quotient % 2 == 1) then quotient + 1
  else quotient

/-- The greatest exponent that leaves a positive ratio all bits of the mantissa. -/
def exponentOf (numerator denominator : Nat) : Int :=
  let guess : Int := numerator.log2 - denominator.log2 - (bits - 1 : Nat)
  let place := guess + (bits - 1 : Nat)
  let reached :=
    if 0 ≤ place then denominator * Nat.pow 2 place.toNat ≤ numerator
    else denominator ≤ numerator * Nat.pow 2 (-place).toNat
  if reached then guess else guess - 1

/-- The double nearest to a ratio. -/
def ofRatio (negative : Bool) (numerator denominator : Nat) : Double :=
  if numerator = 0 then .finite negative 0 minExponent
  else
    let exponent := max (exponentOf numerator denominator) minExponent
    let mantissa :=
      if 0 ≤ exponent then roundQuotient numerator (denominator * Nat.pow 2 exponent.toNat)
      else roundQuotient (numerator * Nat.pow 2 (-exponent).toNat) denominator
    let (mantissa, exponent) :=
      if mantissa = Nat.pow 2 bits then (Nat.pow 2 (bits - 1), exponent + 1) else (mantissa, exponent)
    if maxExponent < exponent then .infinite negative else .finite negative mantissa exponent

/-- Beyond this many decimal places to either side of the point no finite double is left. -/
def decimalRange : Int := 400

/-- The double nearest to `digits · 10 ^ exponent`. -/
def ofDecimal (negative : Bool) (digits : Nat) (exponent : Int) : Double :=
  let places : Int := (Nat.toDigits 10 digits).length + exponent
  if digits = 0 || places < -decimalRange then .finite negative 0 minExponent
  else if decimalRange < places then .infinite negative
  else if 0 ≤ exponent then ofRatio negative (digits * Nat.pow 10 exponent.toNat) 1
  else ofRatio negative digits (Nat.pow 10 (-exponent).toNat)

def isZero : Double → Bool
  | .finite _ mantissa _ => mantissa == 0
  | _ => false

/-- The other sign. -/
def negate : Double → Double
  | .finite negative mantissa exponent => .finite (!negative) mantissa exponent
  | .infinite negative => .infinite (!negative)
  | .notANumber mark => .notANumber mark

/-- A finite double as a numerator and a denominator. -/
def ratio? : Double → Option (Int × Nat)
  | .finite negative mantissa exponent =>
    let size : Int := if 0 ≤ exponent then mantissa * Nat.pow 2 exponent.toNat else mantissa
    some (if negative then -size else size, if 0 ≤ exponent then 1 else Nat.pow 2 (-exponent).toNat)
  | _ => none

/-- Whether a finite double is a whole number with this value. -/
def equalsInt (double : Double) (number : Int) : Bool :=
  match double.ratio? with
  | none => false
  | some (numerator, denominator) => numerator == number * denominator

/-- Equality of numbers: the two zeros are the same number, and what is no number is told apart by its
mark. -/
def sameNumber (first second : Double) : Bool :=
  first == second || (first.isZero && second.isZero)

/-- The sign of a double; that of no number is of no account. -/
def isNegative : Double → Bool
  | .finite negative _ _ | .infinite negative => negative
  | .notANumber _ => false

/-- The sum of two doubles, rounded. Two zeros of different signs add up to the positive one. -/
def add (first second : Double) : Double :=
  match first, second with
  | .notANumber mark, _ | _, .notANumber mark => .notANumber mark
  | .infinite negative, .infinite other => if negative = other then .infinite negative else .notANumber 1
  | .infinite negative, _ | _, .infinite negative => .infinite negative
  | .finite .., .finite .. =>
    match first.ratio?, second.ratio? with
    | some (numerator, denominator), some (numerator', denominator') =>
      let sum := numerator * denominator' + numerator' * denominator
      let negative := if sum = 0 then first.isNegative && second.isNegative else decide (sum < 0)
      ofRatio negative sum.natAbs (denominator * denominator')
    | _, _ => .notANumber 1

/-- The product of two doubles, rounded. -/
def multiply (first second : Double) : Double :=
  let negative := first.isNegative != second.isNegative
  match first, second with
  | .notANumber mark, _ | _, .notANumber mark => .notANumber mark
  | .infinite _, other | other, .infinite _ =>
    if other.isZero then .notANumber 1 else .infinite negative
  | .finite .., .finite .. =>
    match first.ratio?, second.ratio? with
    | some (numerator, denominator), some (numerator', denominator') =>
      ofRatio negative (numerator * numerator').natAbs (denominator * denominator')
    | _, _ => .notANumber 1

end Double

end ScoreRepeats
