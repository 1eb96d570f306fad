/-!
# Days and moments

Days of the calendar, and moments: a day, a time of day and, where it is known, how far the clock is
ahead of universal time. `Date.make` and `Moment.make` refuse what is on no calendar or clock. Two
moments are the same if both clocks are known and they show one instant, or if neither is known and
they show the same (`Moment.same`).
-/

set_option autoImplicit false
set_option relaxedAutoImplicit false

namespace ScoreRepeats

/-- A number with zeros in front up to a number of digits. -/
def padded (digits number : Nat) : String :=
  let chars := Nat.toDigits 10 number
  String.ofList (List.replicate (digits - chars.length) '0' ++ chars)

/-! ### Differences of clocks -/

def minutesPerDay : Nat := 1440

/-- A number of minutes in days and seconds, the days rounded down. -/
def durationShown (minutes : Int) : String :=
  let days := minutes.fdiv minutesPerDay
  let seconds := 60 * minutes.fmod minutesPerDay
  let parts := (if days = 0 then [] else [s!"days={days}"])
    ++ (if seconds = 0 then [] else [s!"seconds={seconds}"])
  "datetime.timedelta(" ++ (if parts.isEmpty then "0" else ", ".intercalate parts) ++ ")"

/-- Why there is no such day or moment. -/
inductive CalendarError
  | year (number : Nat)
  | month
  | day
  | hour
  | minute
  | second
  /-- A clock a day or more ahead or behind. -/
  | offset (minutes : Int)
  deriving DecidableEq, Repr

def CalendarError.message : CalendarError → String
  | .year number => s!"year {number} is out of range"
  | .month => "month must be in 1..12"
  | .day => "day is out of range for month"
  | .hour => "hour must be in 0..23"
  | .minute => "minute must be in 0..59"
  | .second => "second must be in 0..59"
  | .offset minutes =>
    "offset must be a timedelta strictly between -timedelta(hours=24) and timedelta(hours=24), not "
      ++ durationShown minutes ++ "."

/-! ### Days -/

/-- A day of the calendar. -/
structure Date where
  year : Nat
  month : Nat
  day : Nat
  deriving DecidableEq, Repr

namespace Date

def isLeap (year : Nat) : Bool := year % 4 == 0 && (year % 100 != 0 || year % 400 == 0)

/-- The number of days of a month. -/
def daysOf (year month : Nat) : Nat :=
  if month = 2 then if isLeap year then 29 else 28
  else if [4, 6, 9, 11].contains month then 30
  else 31

/-- The day with these numbers. Years have at most four digits here. -/
def make (year month day : Nat) : Except CalendarError Date :=
  if year < 1 || 9999 < year then .error (.year year)
  else if month < 1 || 12 < month then .error .month
  else if day < 1 || daysOf year month < day then .error .day
  else .ok ⟨year, month, day⟩

/-- The number of days from the start of the first year. -/
def number (date : Date) : Nat :=
  let earlier := date.year - 1
  let months := (List.range (date.month - 1)).foldl
    (fun days month ↦ days + daysOf date.year (month + 1)) 0
  365 * earlier + earlier / 4 - earlier / 100 + earlier / 400 + months + (date.day - 1)

def text (date : Date) : String :=
  padded 4 date.year ++ "-" ++ padded 2 date.month ++ "-" ++ padded 2 date.day

/-- The numbers of a day for messages. -/
def numbers (date : Date) : List Nat := [date.year, date.month, date.day]

def shown (date : Date) : String :=
  "datetime.date(" ++ ", ".intercalate (date.numbers.map toString) ++ ")"

end Date

/-! ### Moments -/

/-- A moment; `offset` is how many minutes the clock is ahead of universal time, if that is known. -/
structure Moment where
  date : Date
  hour : Nat
  minute : Nat
  second : Nat
  microsecond : Nat
  offset : Option Int
  deriving DecidableEq, Repr

namespace Moment

/-- The moment with these numbers. The clock is looked at first, then the day, then the time. -/
def make (year month day hour minute second microsecond : Nat) (offset : Option Int) :
    Except CalendarError Moment :=
  match offset.filter fun minutes ↦ decide (minutesPerDay ≤ minutes.natAbs) with
  | some minutes => .error (.offset minutes)
  | none => do
    let date ← Date.make year month day
    if 23 < hour then .error .hour
    else if 59 < minute then .error .minute
    else if 59 < second then .error .second
    else pure ⟨date, hour, minute, second, microsecond, offset⟩

/-- The number of microseconds that the clock shows since the start of the first year. -/
def clock (moment : Moment) : Int :=
  let minutes := minutesPerDay * moment.date.number + 60 * moment.hour + moment.minute
  ((60 * minutes + moment.second) * 1000000 + moment.microsecond : Nat)

/-- The clock of universal time. -/
def universal (moment : Moment) (offset : Int) : Int := moment.clock - 60000000 * offset

/-- Whether two moments are one. -/
def same (first second : Moment) : Bool :=
  match first.offset, second.offset with
  | some offset, some offset' => first.universal offset == second.universal offset'
  | none, none => first.clock == second.clock
  | _, _ => false

/-- A difference of clocks with its sign, in hours and minutes. -/
def offsetText (minutes : Int) : String :=
  (if minutes < 0 then "-" else "+") ++ padded 2 (minutes.natAbs / 60) ++ ":"
    ++ padded 2 (minutes.natAbs % 60)

def text (moment : Moment) : String :=
  moment.date.text ++ " " ++ padded 2 moment.hour ++ ":" ++ padded 2 moment.minute ++ ":"
    ++ padded 2 moment.second
    ++ (if moment.microsecond = 0 then "" else "." ++ padded 6 moment.microsecond)
    ++ (moment.offset.map offsetText).getD ""

/-- The numbers of a moment for messages; no zeros at the end but those of hour and minute. -/
def numbers (moment : Moment) : List Nat :=
  moment.date.numbers ++ [moment.hour, moment.minute] ++
    (if moment.microsecond ≠ 0 then [moment.second, moment.microsecond]
    else if moment.second ≠ 0 then [moment.second]
    else [])

/-- A difference of clocks for messages. -/
def offsetShown (minutes : Int) : String :=
  if minutes = 0 then "datetime.timezone.utc"
  else "datetime.timezone(" ++ durationShown minutes ++ ")"

/-- How many texts stand inside each other in the text for messages: that of the clock is one by
itself, and so is the difference in it. -/
def depth (moment : Moment) : Nat :=
  match moment.offset with
  | none => 1
  | some minutes => if minutes = 0 then 2 else 3

def shown (moment : Moment) : String :=
  let clock := (moment.offset.map fun minutes ↦ ["tzinfo=" ++ offsetShown minutes]).getD []
  "datetime.datetime(" ++ ", ".intercalate (moment.numbers.map toString ++ clock) ++ ")"

end Moment

end ScoreRepeats
