import ScoreRepeats.NoteLength
import ScoreRepeats.Notation.Draft

/-!
# Reading bar notation

A score on one line: `P=240 |: A [1 B :|] [2 C@fine] D@dc`. Bars are separated by blanks; `|:`
belongs to the next bar and `:|` to the one before; `[1 …]` holds the bars of a variation. A reading
takes the tokens one after the other; `Notation.parse` reads a whole text.
-/

set_option autoImplicit false
set_option relaxedAutoImplicit false

namespace ScoreRepeats.Notation

/-- Where a token stands with respect to brackets. -/
inductive Place
  | outside
  | afterBracket
  | inside (number : Int)
  deriving DecidableEq, Repr

/-- The variation of a bar that stands here. -/
def Place.variation : Place → Option Int
  | .inside number => some number
  | _ => none

/-- The state of reading. -/
structure Reading where
  /-- The bars so far, the latest first. -/
  drafts : List Draft
  /-- Whether the next bar starts a repeat. -/
  startsRepeat : Bool
  place : Place
  deriving DecidableEq, Repr

namespace Reading

def start : Reading := ⟨[], false, .outside⟩

/-- The number after an opening bracket. -/
def takeNumber (reading : Reading) (token : Token) : Except Error Reading :=
  if Text.isDigits token then
    match readNumber token with
    | .error error => .error error
    | .ok number =>
      if number < 1 then .error (.numberExpected token)
      else .ok { reading with place := .inside number }
  else .error (.numberExpected token)

def takeBracket (reading : Reading) : Except Error Reading :=
  match reading.place with
  | .inside _ => .error .nestedVariations
  | _ => .ok { reading with place := .afterBracket }

def takeClosing (reading : Reading) : Except Error Reading :=
  match reading.place with
  | .inside _ => .ok { reading with place := .outside }
  | _ => .error .strayBracket

def takeRepeatEnd (reading : Reading) : Except Error Reading :=
  match reading.drafts with
  | [] => .error .strayRepeatEnd
  | latest :: earlier => .ok { reading with drafts := latest.mark .repeatEnd :: earlier }

def takeBar (reading : Reading) (defaultTicks : Int) (token : Token) : Except Error Reading :=
  (Draft.ofToken token defaultTicks reading.place.variation).map fun draft ↦
    { reading with
      drafts := (if reading.startsRepeat then draft.mark .repeatStart else draft) :: reading.drafts
      startsRepeat := false }

/-- Takes the next token. -/
def take (defaultTicks : Int) (reading : Reading) (token : Token) : Except Error Reading :=
  if reading.place = .afterBracket then reading.takeNumber token
  else if token = ['['] then reading.takeBracket
  else if token = [']'] then reading.takeClosing
  else if token = ['|', ':'] then .ok { reading with startsRepeat := true }
  else if token = [':', '|'] then reading.takeRepeatEnd
  else reading.takeBar defaultTicks token

/-- The bars at the end of the text. -/
def finish (reading : Reading) : Except Error (List Bar) :=
  if reading.place ≠ .outside then .error .missingBracket
  else if reading.startsRepeat then .error .strayRepeatStart
  else reading.drafts.reverse.mapM Draft.toBar

end Reading

/-- The bars that tokens describe. -/
def barsOfTokens (defaultTicks : Int) (tokens : List Token) : Except Error (List Bar) :=
  match tokens.foldlM (Reading.take defaultTicks) Reading.start with
  | .error error => .error error
  | .ok reading => reading.finish

/-- The length of bars that have none of their own, unless another is given: a bar of common time. -/
def defaultLength : Int := ticksPerWhole

/-- The bars that a notation describes. -/
def parse (text : String) (defaultTicks : Int) : Except Error (List Bar) :=
  if defaultTicks ≤ 0 then .error .defaultLength
  else barsOfTokens defaultTicks (tokens text.toList)

end ScoreRepeats.Notation
