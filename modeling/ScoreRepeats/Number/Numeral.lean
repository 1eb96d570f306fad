import ScoreRepeats.Text.Blank
import ScoreRepeats.Text.Digit
import ScoreRepeats.Text.Quoted

/-!
# Numerals

Whole numbers as people write them: padding, a sign, and decimal digits of any script, with single
underscores allowed between digits. A numeral has at most 4300 digits, leading zeros counted.
`read` gives the number or says what is wrong.
-/

set_option autoImplicit false
set_option relaxedAutoImplicit false

namespace ScoreRepeats.Numeral

/-- Why a text is no numeral. -/
inductive Error
  | malformed (base : Nat) (text : List Char)
  | tooLong (digits : Nat)
  deriving DecidableEq, Repr

/-- The most digits that a numeral may have. -/
def maxDigits : Nat := 4300

/-- A quotation of the text of a failed numeral is cut after this many characters. -/
def maxQuotation : Nat := 200

def Error.message : Error → String
  | .malformed base text =>
    s!"invalid literal for int() with base {base}: "
      ++ String.ofList ((Text.quotedChars text).take maxQuotation)
  | .tooLong digits =>
    s!"Exceeds the limit ({maxDigits} digits) for integer string conversion: value has {digits} "
      ++ "digits; use sys.set_int_max_str_digits() to increase the limit"

/-- Whether a number has few enough digits to be written as a numeral. -/
def isWritable (number : Int) : Bool := number.natAbs < Nat.pow 10 maxDigits

/-- A number of one digit can be written. -/
theorem isWritable_of_natAbs_lt {number : Int} (h : number.natAbs < 10) :
    isWritable number = true := by
  have hpow (digits : Nat) (hdigits : digits ≠ 0) : 10 ≤ Nat.pow 10 digits :=
    Nat.le_pow (Nat.pos_of_ne_zero hdigits)
  exact decide_eq_true (Nat.lt_of_lt_of_le h (hpow maxDigits (by decide)))

/-- The message for a number that is too long to be written. -/
def unwritable : String :=
  s!"Exceeds the limit ({maxDigits} digits) for integer string conversion; "
    ++ "use sys.set_int_max_str_digits() to increase the limit"

/-- A message with some numbers in it, or only the complaint that one of them is too long to be
written. -/
def tell (numbers : List Int) (message : String) : String :=
  if numbers.all isWritable then message else unwritable

/-- The blanks that may stand around a numeral: all but the information separators. -/
def isPadding (char : Char) : Bool :=
  Text.isBlank char && !(0x1c ≤ char.toNat && char.toNat ≤ 0x1f)

/-- A sign as a factor, and what follows it. -/
def readSign : List Char → Int × List Char
  | '-' :: rest => (-1, rest)
  | '+' :: rest => (1, rest)
  | rest => (1, rest)

/-- A character inside the digits of a numeral. -/
def isInner (char : Char) : Bool := Text.isDecimal char || char == '_'

/-- The number that decimal digits denote. -/
def valueOf (digits : List Char) : Nat :=
  digits.foldl (fun value digit ↦ 10 * value + (Text.decimalValue? digit).getD 0) 0

/-- The whole number that a text denotes. -/
def read (text : List Char) : Except Error Int :=
  let (sign, unsigned) := readSign (text.dropWhile isPadding)
  let groups := Text.splitAt '_' (unsigned.takeWhile isInner)
  if groups.any List.isEmpty then .error (.malformed 10 text)
  else
    let digits := groups.flatten
    if maxDigits < digits.length then .error (.tooLong digits.length)
    else if (unsigned.dropWhile isInner).all isPadding then .ok (sign * valueOf digits)
    else .error (.malformed 10 text)

/-! ### Bases that are powers of two -/

/-- The letter that announces a base after a zero. -/
def baseLetter? : Nat → Option Char
  | 2 => some 'b'
  | 8 => some 'o'
  | 16 => some 'x'
  | _ => none

/-- The digits after the announcement of a base, if there is one. -/
def dropBase (base : Nat) : List Char → List Char
  | '0' :: letter :: rest =>
    if baseLetter? base == some letter.toLower then rest else '0' :: letter :: rest
  | text => text

/-- The value of a digit of any script or of a letter from `a` to `f`. -/
def digitValue? (char : Char) : Option Nat :=
  if 'a' ≤ char.toLower && char.toLower ≤ 'f' then some (char.toLower.toNat - 'a'.toNat + 10)
  else Text.decimalValue? char

/-- The whole number that a text without underscores denotes in base two, eight or sixteen. There is
no limit to the number of its digits. -/
def readInBase (base : Nat) (text : List Char) : Except Error Int :=
  let (sign, unsigned) := readSign (text.dropWhile isPadding)
  let digits := dropBase base (unsigned.reverse.dropWhile isPadding).reverse
  match digits.mapM fun digit ↦ (digitValue? digit).filter (· < base) with
  | some (first :: rest) =>
    .ok (sign * ((first :: rest).foldl (fun number value ↦ base * number + value) 0 : Nat))
  | _ => .error (.malformed base text)

end ScoreRepeats.Numeral
