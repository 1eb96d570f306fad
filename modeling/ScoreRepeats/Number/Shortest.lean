import ScoreRepeats.Number.Double

/-!
# Decimal text of doubles

A double is written with the fewest digits that read back as the same double, and of those with the
nearest. The search looks at grids of one, two, and up to seventeen digits; on each only the two
neighbours of the exact value can read back. The point stands among the digits for numbers from
`0.0001` up to ten quadrillions; beyond that an exponent of at least two digits follows.
-/

set_option autoImplicit false
set_option relaxedAutoImplicit false

namespace ScoreRepeats.Double

/-- The exact place of a double between its neighbours, in quarters of its last bit: the number and
the ends of the interval of numbers that read back as it. The ends belong to the interval if the
mantissa is even. -/
structure Surroundings where
  value : Nat
  low : Nat
  high : Nat
  closed : Bool
  /-- One quarter of the last bit is `2 ^ unit`. -/
  unit : Int
  deriving DecidableEq, Repr

/-- The surroundings of a positive double. Below a power of two the neighbours are closer. -/
def surroundings (mantissa : Nat) (exponent : Int) : Surroundings where
  value := 4 * mantissa
  low :=
    if mantissa = Nat.pow 2 (bits - 1) ∧ minExponent < exponent then 4 * mantissa - 1
    else 4 * mantissa - 2
  high := 4 * mantissa + 2
  closed := mantissa % 2 = 0
  unit := exponent - 2

/-- A power as a numerator and a denominator. -/
def powerRatio (base : Nat) (exponent : Int) : Nat × Nat :=
  if 0 ≤ exponent then (Nat.pow base exponent.toNat, 1) else (1, Nat.pow base (-exponent).toNat)

/-- Whether an interval contains a point; its two ends belong to it if it is closed. -/
def Surroundings.contains (place : Surroundings) (point unit : Nat) : Bool :=
  if place.closed then place.low * unit ≤ point && point ≤ place.high * unit
  else place.low * unit < point && point < place.high * unit

/-- The point of the grid of multiples of `10 ^ scale` that reads back, if there is one: the nearer
of two, the even one of two that are equally near. -/
def Surroundings.onGrid? (place : Surroundings) (scale : Int) : Option Nat :=
  let (unitNumerator, unitDenominator) := powerRatio 2 place.unit
  let (stepNumerator, stepDenominator) := powerRatio 10 scale
  let unit := unitNumerator * stepDenominator
  let step := stepNumerator * unitDenominator
  let below := place.value * unit / step
  let above := below + 1
  let belowGap := place.value * unit - below * step
  let aboveGap := above * step - place.value * unit
  match place.contains (below * step) unit, place.contains (above * step) unit with
  | true, true =>
    some (if belowGap < aboveGap || (belowGap == aboveGap && below % 2 == 0) then below else above)
  | true, false => some below
  | false, true => some above
  | false, false => none

/-- The number of digits before the point of a positive ratio; negative for zeros after it. -/
def pointPlace (numerator denominator : Nat) : Int :=
  let guess : Int := (Nat.toDigits 10 numerator).length - (Nat.toDigits 10 denominator).length
  let (powerNumerator, powerDenominator) := powerRatio 10 guess
  if numerator * powerDenominator < denominator * powerNumerator then guess else guess + 1

/-- Seventeen digits tell all doubles apart. -/
def maxDigits : Nat := 17

/-- The shortest digits of a positive double and the exponent of ten that goes with them. -/
def shortest (mantissa : Nat) (exponent : Int) : Nat × Int :=
  let place := surroundings mantissa exponent
  let (unitNumerator, unitDenominator) := powerRatio 2 place.unit
  let point := pointPlace (place.value * unitNumerator) unitDenominator
  let tried := (List.range maxDigits).findSome? fun digits ↦
    let scale := point - (digits + 1 : Nat)
    (place.onGrid? scale).map fun found ↦ (found, scale)
  tried.getD (mantissa, exponent)

/-- Digits are written around a point if this many or fewer stand before it. -/
def maxPlaces : Int := 16

/-- Digits are written around a point if fewer than this many zeros follow it. -/
def maxZeros : Int := 4

/-- Digits that start `point` places before the point, written around it. -/
def positional (digits : List Char) (point : Int) : List Char :=
  if point ≤ 0 then '0' :: '.' :: (List.replicate (-point).toNat '0' ++ digits)
  else
    let whole := digits.take point.toNat
    let padding := List.replicate (point.toNat - digits.length) '0'
    let fraction := digits.drop point.toNat
    whole ++ padding ++ '.' :: (if fraction.isEmpty then ['0'] else fraction)

/-- Digits with an exponent: the point after the first, the exponent with sign and two digits. -/
def scientific (digits : List Char) (point : Int) : List Char :=
  let exponent := point - 1
  let size := Nat.toDigits 10 exponent.natAbs
  let fraction := match digits.drop 1 with
    | [] => []
    | rest => '.' :: rest
  digits.take 1 ++ fraction ++ 'e' :: (if exponent < 0 then '-' else '+') ::
    (List.replicate (2 - size.length) '0' ++ size)

/-- The text of a positive double. -/
def positiveText (mantissa : Nat) (exponent : Int) : List Char :=
  let (number, scale) := shortest mantissa exponent
  let digits := Nat.toDigits 10 number
  let point := digits.length + scale
  let significant := (digits.reverse.dropWhile (· == '0')).reverse
  if -maxZeros < point ∧ point ≤ maxPlaces then positional significant point
  else scientific significant point

def text : Double → String
  | .finite negative mantissa exponent =>
    let size := if mantissa = 0 then ['0', '.', '0'] else positiveText mantissa exponent
    String.ofList (if negative then '-' :: size else size)
  | .infinite negative => if negative then "-inf" else "inf"
  | .notANumber _ => "nan"

end ScoreRepeats.Double
