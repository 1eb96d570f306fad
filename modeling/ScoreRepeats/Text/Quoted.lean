import ScoreRepeats.Text.Half
import ScoreRepeats.Text.Printable

/-!
# Quoted text

A text between quotes, as messages show it. Single quotes are used unless the text holds a single
quote and no double one. The quote in use and the backslash are preceded by a backslash; tab, line
feed and carriage return have letters; every other character that is not printable is written by
its code in two, four or eight hexadecimal digits, whichever is the first to suffice. So is half of
a character.
-/

set_option autoImplicit false
set_option relaxedAutoImplicit false

namespace ScoreRepeats.Text

/-- The hexadecimal digit of a value below sixteen, in lower case. -/
def hexDigit (value : Nat) : Char :=
  if value < 10 then Char.ofNat (0x30 + value) else Char.ofNat (0x57 + value)

/-- The last `width` hexadecimal digits of a number. -/
def hexDigits : (width : Nat) → Nat → List Char
  | 0, _ => []
  | width + 1, value => hexDigits width (value / 16) ++ [hexDigit (value % 16)]

/-- The escape of a character that cannot be shown. -/
def codeEscape (code : Nat) : List Char :=
  if code < 0x100 then '\\' :: 'x' :: hexDigits 2 code
  else if code < 0x10000 then '\\' :: 'u' :: hexDigits 4 code
  else '\\' :: 'U' :: hexDigits 8 code

/-- One character inside quotes. -/
def quotedChar (mark char : Char) : List Char :=
  if char = mark || char = '\\' then ['\\', char]
  else if char = '\t' then ['\\', 't']
  else if char = '\n' then ['\\', 'n']
  else if char = '\r' then ['\\', 'r']
  else if isPrintable char then [char]
  else codeEscape char.toNat

/-- The quote to put around a text. -/
def quoteMark (text : List Char) : Char :=
  if text.contains '\'' && !text.contains '"' then '"' else '\''

/-- One character or half of a character, by its code, inside quotes. -/
def quotedCode (mark : Char) (code : Nat) : List Char :=
  if isHalf code then codeEscape code else quotedChar mark (Char.ofNat code)

/-- A text between quotes. -/
def quotedChars (text : List Char) : List Char :=
  let mark := quoteMark text
  mark :: (codes text).flatMap (quotedCode mark) ++ [mark]

/-- A text between quotes. -/
def quoted (text : String) : String := String.ofList (quotedChars text.toList)

/-- One byte inside quotes. Only those of plain letters and signs stand for themselves. -/
def quotedByte (mark : Char) (byte : UInt8) : List Char :=
  if byte < 0x7f then quotedChar mark (Char.ofNat byte.toNat) else codeEscape byte.toNat

/-- Bytes between quotes, after a `b`. -/
def quotedBytes (bytes : List UInt8) : String :=
  let mark := quoteMark (bytes.map fun byte ↦ Char.ofNat byte.toNat)
  String.ofList ('b' :: mark :: bytes.flatMap (quotedByte mark) ++ [mark])

/-- Items between square brackets, with a comma and a space between neighbours. -/
def bracketed (items : List String) : String := "[" ++ ", ".intercalate items ++ "]"

end ScoreRepeats.Text
