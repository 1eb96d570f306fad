import ScoreRepeats.Number.Decimal
import ScoreRepeats.Text.Base64
import ScoreRepeats.Text.LowerCase
import ScoreRepeats.Value
import ScoreRepeats.Yaml.Error
import ScoreRepeats.Yaml.Tag

/-!
# The values of YAML scalars

What the text of a scalar means under its tag. A tag may be given to a text that would not suggest
it, so that every reading can fail.
-/

set_option autoImplicit false
set_option relaxedAutoImplicit false

namespace ScoreRepeats.Yaml

/-- The truth value of a word. -/
def boolOf (text : List Char) : Except Error Value :=
  let chars := Text.lowerCase text
  let word := String.ofList chars
  if ["yes", "true", "on"].contains word then .ok (.bool true)
  else if ["no", "false", "off"].contains word then .ok (.bool false)
  else .error (.noTruth chars)

/-! ### Numbers -/

/-- A number in a base that is a power of two. -/
def powerOf (base : Nat) (text : List Char) : Except Error Int :=
  (Numeral.readInBase base text).mapError .number

/-- A number in base ten. -/
def decimalOf (text : List Char) : Except Error Int := (Numeral.read text).mapError .number

/-- The number that places of base sixty denote. -/
def sexagesimalOf (places : List (List Char)) : Except Error Int := do
  pure ((← places.mapM decimalOf).foldl (fun number place ↦ 60 * number + place) 0)

/-- The size of a whole number written without sign and underscores. -/
def sizeOf (digits : List Char) : Except Error Int :=
  match digits with
  | [] => .error .emptyNumber
  | ['0'] => .ok 0
  | '0' :: 'b' :: rest => powerOf 2 rest
  | '0' :: 'x' :: rest => powerOf 16 rest
  | '0' :: _ => powerOf 8 digits
  | _ => if digits.contains ':' then sexagesimalOf (Tag.places digits) else decimalOf digits

def withoutUnderscores (text : List Char) : List Char := text.filter (· != '_')

def isNegative (text : List Char) : Bool := text.head? == some '-'

def intOf (text : List Char) : Except Error Value :=
  let chars := withoutUnderscores text
  (sizeOf (Tag.unsigned chars)).map fun size ↦ .int (if isNegative chars then -size else size)

/-- The weight of a place of base sixty, if it is no greater than all doubles. -/
def weightOf (index : Nat) : Except Error Double :=
  match Double.ofRatio false (Nat.pow 60 index) 1 with
  | .infinite _ => .error .tooLarge
  | weight => .ok weight

/-- The decimals at the places of base sixty, added up from the last place on. -/
def sumPlaces (places : List Double) : Except Error Double := do
  let weighted ← places.reverse.zipIdx.mapM fun (place, index) ↦ do
    pure (place.multiply (← weightOf index))
  pure (weighted.foldl Double.add (.finite false 0 Double.minExponent))

/-- The decimal at one place. -/
def decimalPlace (digits : List Char) : Except Error Double :=
  match Double.readFree? digits with
  | none => .error (.decimal digits)
  | some number => .ok number

/-- The size of a decimal written without sign and underscores. -/
def magnitudeOf (digits : List Char) : Except Error Double :=
  if digits = ".inf".toList then .ok (.infinite false)
  else if digits = ".nan".toList then .ok (.notANumber 0)
  else if digits.contains ':' then do sumPlaces (← (Tag.places digits).mapM decimalPlace)
  else decimalPlace digits

def floatOf (text : List Char) : Except Error Value :=
  let chars := Text.lowerCase (withoutUnderscores text)
  if chars.isEmpty then .error .emptyNumber
  else (magnitudeOf (Tag.unsigned chars)).map fun size ↦
    .float (if isNegative chars then size.negate else size)

/-! ### Bytes and times -/

/-- The bytes of a text in base 64, which must be plain letters and signs throughout. -/
def bytesOf (text : List Char) : Except Error Value :=
  if text.all fun char ↦ char.toNat < 0x80 then
    match Text.decodeBase64 text with
    | some bytes => .ok (.bytes bytes)
    | none => .error .malformed
  else .error .malformed

/-- A day, or a moment if a time of day is given. -/
def timeOf (text : List Char) : Except Error Value :=
  match Timestamp.read? (Tag.withoutLineFeed text) with
  | none => .error .noTimestamp
  | some stamp =>
    match stamp.clock with
    | none => (stamp.date.mapError .calendar).map .date
    | some clock => ((stamp.moment clock).mapError .calendar).map .moment

/-- The value of a scalar. -/
def scalarValue (tag : Tag) (text : List Char) : Except Error Value :=
  match tag with
  | .null => .ok .null
  | .bool => boolOf text
  | .int => intOf text
  | .float => floatOf text
  | .bytes => bytesOf text
  | .timestamp => timeOf text
  | .text => .ok (.text (String.ofList text))
  | .sequence | .pairs | .mapping | .set | .merge | .self | .unknown => .error .malformed

end ScoreRepeats.Yaml
