import ScoreRepeats.Calendar
import ScoreRepeats.Number.Numeral

/-!
# Time stamps

A day, written `2001-12-14`, or a moment: after the day a `T` or blanks, a time of day with or
without a fraction of a second, and perhaps `Z` or a difference to universal time in hours and
minutes. Month, day, hour and the hours of the difference may be written with one digit.
-/

set_option autoImplicit false
set_option relaxedAutoImplicit false

namespace ScoreRepeats.Yaml

/-- A time of day as it is written. -/
structure Clock where
  hour : Nat
  minute : Nat
  second : Nat
  /-- The digits of the fraction of a second. -/
  fraction : List Char
  /-- The difference to universal time in minutes, if it is given. -/
  offset : Option Int
  deriving DecidableEq, Repr

/-- A time stamp as it is written. -/
structure Timestamp where
  year : Nat
  month : Nat
  day : Nat
  /-- Whether month and day have two digits. -/
  full : Bool
  clock : Option Clock
  deriving DecidableEq, Repr

namespace Timestamp

/-- A number of so many digits, and the text after it. -/
def number? (least most : Nat) (text : List Char) : Option (Nat × List Char) :=
  let digits := (text.take most).takeWhile Char.isDigit
  if digits.length < least then none else some (Numeral.valueOf digits, text.drop digits.length)

/-- The text after a sign. -/
def after? (sign : Char) : List Char → Option (List Char)
  | [] => none
  | char :: rest => if char = sign then some rest else none

def isGap (char : Char) : Bool := char == ' ' || char == '\t'

/-- A difference to universal time without its sign, up to the end of the text. -/
def difference? (text : List Char) : Option Nat := do
  let (hours, rest) ← number? 1 2 text
  match rest with
  | [] => some (60 * hours)
  | ':' :: rest =>
    let (minutes, rest) ← number? 2 2 rest
    if rest.isEmpty then some (60 * hours + minutes) else none
  | _ => none

/-- What may follow a time of day. -/
def offset? (text : List Char) : Option (Option Int) :=
  if text.isEmpty then some none
  else match text.dropWhile isGap with
    | ['Z'] => some (some 0)
    | '+' :: rest => (difference? rest).map fun minutes ↦ some minutes
    | '-' :: rest => (difference? rest).map fun minutes ↦ some (-minutes)
    | _ => none

/-- A time of day up to the end of the text. -/
def clock? (text : List Char) : Option Clock := do
  let (hour, rest) ← number? 1 2 text
  let (minute, rest) ← number? 2 2 (← after? ':' rest)
  let (second, rest) ← number? 2 2 (← after? ':' rest)
  let (fraction, rest) := match rest with
    | '.' :: rest => (rest.takeWhile Char.isDigit, rest.dropWhile Char.isDigit)
    | rest => ([], rest)
  let offset ← offset? rest
  pure { hour, minute, second, fraction, offset }

/-- The text after what separates a day from a time. -/
def separated? : List Char → Option (List Char)
  | 'T' :: rest | 't' :: rest => some rest
  | text => if (text.head?).any isGap then some (text.dropWhile isGap) else none

/-- The time stamp that a text consists of. -/
def read? (text : List Char) : Option Timestamp := do
  let (year, afterYear) ← number? 4 4 text
  let (month, afterMonth) ← number? 1 2 (← after? '-' afterYear)
  let (day, rest) ← number? 1 2 (← after? '-' afterMonth)
  let full := afterYear.length == afterMonth.length + 3 && afterMonth.length == rest.length + 3
  if rest.isEmpty then pure { year, month, day, full, clock := none }
  else
    let clock ← clock? (← separated? rest)
    pure { year, month, day, full, clock := some clock }

/-- A day alone is taken for a time stamp only if it is written in full. -/
def isPlain (stamp : Timestamp) : Bool := stamp.full || stamp.clock.isSome

/-- The microseconds in a fraction of a second; further digits do not count. -/
def microseconds (fraction : List Char) : Nat :=
  let digits := fraction.take 6
  Numeral.valueOf digits * Nat.pow 10 (6 - digits.length)

/-- The moment at a time of the day of a stamp. -/
def moment (stamp : Timestamp) (clock : Clock) : Except CalendarError Moment :=
  Moment.make stamp.year stamp.month stamp.day clock.hour clock.minute clock.second
    (microseconds clock.fraction) clock.offset

/-- The day of a stamp. -/
def date (stamp : Timestamp) : Except CalendarError Date :=
  Date.make stamp.year stamp.month stamp.day

end Timestamp

end ScoreRepeats.Yaml
