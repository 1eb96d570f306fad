import ScoreRepeats.Number.Double
import ScoreRepeats.Number.Numeral

/-!
# Reading decimals

A decimal is digits, with a point among or before them, and an exponent after an `e`. It is read as
the nearest double. `Double.read?` takes a decimal with or without a minus sign; `Double.readFree?`
takes also padding, a plus sign, digits of any script, and the names of what is no finite number.
-/

set_option autoImplicit false
set_option relaxedAutoImplicit false

namespace ScoreRepeats.Double

/-- An exponent: digits, at least one, after a sign or none. -/
def readExponent? (text : List Char) : Option Int :=
  let (sign, digits) := Numeral.readSign text
  if digits.isEmpty || !digits.all Char.isDigit then none else some (sign * Numeral.valueOf digits)

/-- The double that an unsigned decimal denotes. -/
def readUnsigned? (negative : Bool) (text : List Char) : Option Double :=
  let whole := text.takeWhile Char.isDigit
  let rest := text.dropWhile Char.isDigit
  let (fraction, rest) := match rest with
    | '.' :: rest => (rest.takeWhile Char.isDigit, rest.dropWhile Char.isDigit)
    | rest => ([], rest)
  let exponent? := match rest with
    | [] => some 0
    | mark :: rest => if mark == 'e' || mark == 'E' then readExponent? rest else none
  if whole.isEmpty && fraction.isEmpty then none
  else exponent?.map fun exponent ↦
    ofDecimal negative (Numeral.valueOf (whole ++ fraction)) (exponent - fraction.length)

/-- The double that a decimal with or without a minus sign denotes. -/
def read? : List Char → Option Double
  | '-' :: text => readUnsigned? true text
  | text => readUnsigned? false text

/-- A digit of any script as one of the ten plain digits. -/
def plainDigit (char : Char) : Char :=
  match Text.decimalValue? char with
  | some value => Nat.digitChar value
  | none => char

/-- The name of what is no finite number. -/
def named? (negative : Bool) (text : List Char) : Option Double :=
  let word := String.ofList (text.map Char.toLower)
  if word == "inf" || word == "infinity" then some (.infinite negative)
  else if word == "nan" then some (.notANumber 1)
  else none

/-- The double that a text denotes. -/
def readFree? (text : List Char) : Option Double :=
  let padded := text.dropWhile Numeral.isPadding
  let (sign, unsigned) := Numeral.readSign (padded.reverse.dropWhile Numeral.isPadding).reverse
  let negative := decide (sign < 0)
  (named? negative unsigned).or (readUnsigned? negative (unsigned.map plainDigit))

end ScoreRepeats.Double
