import ScoreRepeats.Notation.Reading
import ScoreRepeats.Rhythm
import ScoreRepeats.Value

/-!
# Score files

A score file is a mapping: the rhythm, whether the piece starts with a pickup, and the bars, either
in bar notation or as a list of entries with an id each. Bars without a length are as long as a full
bar of the rhythm. `Score.ofValue` reads the mapping.

Values that are no texts are put in words where they are read as texts or quoted in an error. `room`
says how deep their texts may stand inside each other.
-/

set_option autoImplicit false
set_option relaxedAutoImplicit false

namespace ScoreRepeats

/-- What a score file says. -/
structure Score where
  bars : List Bar
  rhythm : Rhythm
  auftakt : Bool
  deriving DecidableEq, Repr

/-- Why a value is no score. Values are quoted as they are shown. -/
inductive ScoreError
  | noMapping
  | rhythm (error : RhythmError)
  | twoForms
  | noForm
  | barNotation (error : Notation.Error)
  | bars (value : String)
  | noId (entry : String)
  | ticks (id value : String)
  | markers (id value : String)
  | variation (id value : String)
  | bar (error : BarError)
  /-- A value cannot be put in words. -/
  | unshown (obstacle : Value.Obstacle)
  deriving DecidableEq, Repr

namespace ScoreError

/-- The start of a complaint about an entry of the bar list. -/
def about (id : String) : String := "Bar " ++ id ++ ": "

def message : ScoreError → String
  | .noMapping => "A score file must contain a mapping"
  | .rhythm error => error.message
  | .twoForms => "A score file gives either 'notation' or 'bars', not both"
  | .noForm => "A score file needs 'notation' or 'bars'"
  | .barNotation error => error.message
  | .bars value => "'bars' must be a list, got " ++ value
  | .noId entry => "Each bar needs an 'id', got " ++ entry
  | .ticks id value => about id ++ "'ticks' must be a whole number, got " ++ value
  | .markers id value => about id ++ "'markers' must be a list of marker names, got " ++ value
  | .variation id value => about id ++ "'variation' must be a whole number, got " ++ value
  | .bar error => error.message
  | .unshown .longNumber => Numeral.unwritable
  | .unshown .tooDeep => "maximum recursion depth exceeded while getting the repr of an object"

/-- Whether the error is about a value of the file. Malformed bar notation has errors of its own, and
that a value is nested too deep is told by no error of the program. -/
def isValueError : ScoreError → Bool
  | .barNotation error => !error.isNotational
  | .unshown .tooDeep => false
  | _ => true

end ScoreError

namespace Value

/-- A value quoted in an error. -/
def quote (room : Nat) (value : Value) : Except ScoreError String :=
  (value.shown room).mapError .unshown

/-- A value read as a text. -/
def read (room : Nat) (value : Value) : Except ScoreError String :=
  (value.plain room).mapError .unshown

end Value

namespace BarEntry

/-- The length of a bar; a full bar unless it is given. -/
def ticks (room fullBar : Nat) (id : Value) (entries : List (Value × Value)) : Except ScoreError Int :=
  match Value.entry? "ticks" entries with
  | none => .ok fullBar
  | some (.int number) => .ok number
  | some value => do .error (.ticks (← id.quote room) (← value.quote room))

/-- The text in a value, if it is one. -/
def textOf? : Value → Option String
  | .text chars => some chars
  | _ => none

/-- The names of the markers. A value that counts as false stands for none. -/
def markers (room : Nat) (id : Value) (entries : List (Value × Value)) : Except ScoreError (List String) :=
  match Value.entry? "markers" entries with
  | none => .ok []
  | some value =>
    if value.isTrue then
      match value.items?.bind fun items ↦ items.mapM textOf? with
      | some names => .ok names
      | none => do .error (.markers (← id.quote room) (← value.quote room))
    else .ok []

/-- The number of the variation, if there is one. -/
def variation (room : Nat) (id : Value) (entries : List (Value × Value)) :
    Except ScoreError (Option Int) :=
  match Value.entry? "variation" entries with
  | none | some .null => .ok none
  | some (.int number) => .ok (some number)
  | some value => do .error (.variation (← id.quote room) (← value.quote room))

/-- The bar that an entry describes. -/
def read (room fullBar : Nat) (entry : Value) : Except ScoreError Bar :=
  match entry.entries? with
  | none => do .error (.noId (← entry.quote room))
  | some entries =>
    match Value.entry? "id" entries with
    | none => do .error (.noId (← entry.quote room))
    | some id => do
      let ticks ← ticks room fullBar id entries
      let names ← markers room id entries
      let variation ← variation room id entries
      let text ← id.read room
      (Bar.make text ticks names variation).mapError .bar

/-- The calls through which an entry is read from within a file. Each leaves less room. -/
def calls : Nat := 2

end BarEntry

namespace Score

/-- The rhythm that a score file declares, or common time. -/
def readRhythm (room : Nat) (entries : List (Value × Value)) : Except ScoreError Rhythm :=
  match Value.entry? "rhythm" entries with
  | none => .ok Rhythm.common
  | some value => do (Rhythm.parse (← value.read room)).mapError .rhythm

/-- The bars in a list of entries. A value that counts as false stands for no bars. -/
def readBars (room fullBar : Nat) (value : Value) : Except ScoreError (List Bar) :=
  if value.isTrue then
    match value.items? with
    | some entries => entries.mapM (BarEntry.read (room - BarEntry.calls) fullBar)
    | none => do .error (.bars (← value.quote room))
  else .ok []

/-- The bars of a score file in either form. -/
def readForm (room fullBar : Nat) (entries : List (Value × Value)) :
    Except ScoreError (List Bar) :=
  match Value.entry? "notation" entries, Value.entry? "bars" entries with
  | some _, some _ => .error .twoForms
  | some value, none => do (Notation.parse (← value.read room) fullBar).mapError .barNotation
  | none, some value => readBars room fullBar value
  | none, none => .error .noForm

/-- The score that a value describes. -/
def ofValue (room : Nat) (value : Value) : Except ScoreError Score :=
  match value.entries? with
  | none => .error .noMapping
  | some entries => do
    let rhythm ← readRhythm room entries
    let bars ← readForm room rhythm.fullBar entries
    pure ⟨bars, rhythm, ((Value.entry? "auftakt" entries).map Value.isTrue).getD false⟩

end Score

end ScoreRepeats
