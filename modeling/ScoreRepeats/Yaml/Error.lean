import ScoreRepeats.Calendar
import ScoreRepeats.Number.Numeral

/-!
# Errors of YAML texts

A text that is not well-formed is told from one with a number or a time that cannot be formed, which
has a message of its own, and from one with a scalar that does not even look like what its tag
declares (`Error.breaksOff`).
-/

set_option autoImplicit false
set_option relaxedAutoImplicit false

namespace ScoreRepeats.Yaml

/-- Why a text holds no value. -/
inductive Error
  /-- The text breaks the rules of the language. -/
  | malformed
  | number (error : Numeral.Error)
  /-- A text that is declared to be a decimal is none. -/
  | decimal (text : List Char)
  /-- An escape names no character. -/
  | noCharacter
  /-- A day or a time that is on no calendar or clock. -/
  | calendar (error : CalendarError)
  /-- A number without a single character. -/
  | emptyNumber
  /-- A word that is declared to be a truth value is none. -/
  | noTruth (word : List Char)
  /-- A text that is declared to be a time stamp is none. -/
  | noTimestamp
  /-- A time stamp whose text stands in a mapping. -/
  | wrappedTimestamp
  /-- A decimal of so many places that the first ones are beyond all doubles. -/
  | tooLarge
  /-- A mapping that stands for itself. -/
  | endless
  deriving DecidableEq, Repr

/-- Whether the reader breaks off at an error: a scalar does not look like what its tag declares, or
cannot be followed up. -/
def Error.breaksOff : Error → Bool
  | .emptyNumber | .noTruth _ | .noTimestamp | .wrappedTimestamp | .tooLarge | .endless => true
  | _ => false

/-- The message of an error; nothing where none is told. -/
def Error.message? : Error → Option String
  | .malformed | .emptyNumber | .wrappedTimestamp => none
  | .number error => some error.message
  | .decimal text =>
    some ("could not convert string to float: " ++ String.ofList (Text.quotedChars text))
  | .noCharacter => some "chr() arg not in range(0x110000)"
  | .calendar error => some error.message
  | .noTruth word => some (String.ofList (Text.quotedChars word))
  | .noTimestamp => some "'NoneType' object has no attribute 'groupdict'"
  | .tooLarge => some "int too large to convert to float"
  | .endless => some "maximum recursion depth exceeded"

end ScoreRepeats.Yaml
