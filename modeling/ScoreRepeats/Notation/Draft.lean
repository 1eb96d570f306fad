import ScoreRepeats.Bar
import ScoreRepeats.Number.Numeral
import ScoreRepeats.Notation.Token

/-!
# Drafts

A draft is a bar whose surroundings have not been read yet. A bar token gives its id, then markers,
each after an `@`; a length in ticks may follow any of these after an `=`, and the last one counts.
`Draft.ofToken` reads a token, `Draft.toBar` turns a finished draft into a bar.
-/

set_option autoImplicit false
set_option relaxedAutoImplicit false

namespace ScoreRepeats.Notation

/-- Why a text is no bar notation. -/
inductive Error
  /-- The length of bars without one is not positive. -/
  | defaultLength
  /-- A text of digits is no numeral. -/
  | numeral (error : Numeral.Error)
  | numberExpected (token : Token)
  | nestedVariations
  | strayBracket
  | strayRepeatEnd
  | strayRepeatStart
  | missingBracket
  | length (token : Token)
  | noId (token : Token)
  | unknownMarker (name : List Char) (token : Token)
  | bar (error : BarError)
  deriving DecidableEq, Repr

/-- A text between quotes, for messages. -/
def quoted (text : List Char) : String := String.ofList (Text.quotedChars text)

def Error.message : Error → String
  | .defaultLength => "bar_ticks must be positive"
  | .numeral error => error.message
  | .numberExpected token => "Expected a variation number after '[', got " ++ quoted token
  | .nestedVariations => "Variations cannot be nested"
  | .strayBracket => "Unexpected closing bracket"
  | .strayRepeatEnd => "':|' must follow a bar"
  | .strayRepeatStart => "'|:' must be followed by a bar"
  | .missingBracket => "Missing closing bracket"
  | .length token => "Tick length must be a whole number, got " ++ quoted token
  | .noId token => "Bar token " ++ quoted token ++ " has no id"
  | .unknownMarker name token => "Unknown marker " ++ quoted name ++ " in " ++ quoted token
  | .bar error => error.message

/-- Whether the notation itself is at fault, not a number in it or the default length. -/
def Error.isNotational : Error → Bool
  | .defaultLength | .numeral _ => false
  | _ => true

/-- The short names of markers. -/
def aliases : List (String × Marker) :=
  [("segno", .segno), ("fine", .fine), ("coda1", .codaFirst), ("coda2", .codaSecond),
    ("dc", .daCapo), ("ds", .dalSegno)]

/-- The marker with this short or full name. -/
def markerNamed? (name : String) : Option Marker := (aliases.lookup name).or (Marker.ofName? name)

/-- A number written in digits only. -/
def readNumber (text : List Char) : Except Error Int := (Numeral.read text).mapError .numeral

/-- A bar that is being assembled. -/
structure Draft where
  id : String
  ticks : Int
  markers : MarkerSet
  variation : Option Int
  deriving DecidableEq, Repr

/-- A part of a bar token: a name, and the text after an equals sign if there is one. -/
structure Field where
  name : List Char
  length : Option (List Char)
  deriving DecidableEq, Repr

def Field.ofText (text : List Char) : Field where
  name := text.takeWhile (· != '=')
  length := match text.dropWhile (· != '=') with
    | [] => none
    | _ :: length => some length

/-- The length that a field gives. -/
def Field.ticks (field : Field) (token : Token) : Except Error (Option Int) :=
  match field.length with
  | none => .ok none
  | some text => if Text.isDigits text then (readNumber text).map some else .error (.length token)

/-- The marker that a field names. -/
def Field.marker (field : Field) (token : Token) : Except Error Marker :=
  match markerNamed? (String.ofList field.name) with
  | none => .error (.unknownMarker field.name token)
  | some marker => .ok marker

namespace Draft

/-- The bar that a token describes. Lengths are looked at first, then the id, then the markers. -/
def ofToken (token : Token) (defaultTicks : Int) (variation : Option Int) : Except Error Draft :=
  let fields := (Text.splitAt '@' token).map Field.ofText
  match fields.mapM fun field ↦ field.ticks token with
  | .error error => .error error
  | .ok lengths =>
    match fields with
    | [] => .error (.noId token)
    | idField :: markerFields =>
      if idField.name.isEmpty then .error (.noId token)
      else (markerFields.mapM fun field : Field ↦ field.marker token).map fun markers ↦
        { id := String.ofList idField.name
          ticks := (lengths.filterMap fun length ↦ length).getLast?.getD defaultTicks
          markers := MarkerSet.ofList markers
          variation }

def mark (draft : Draft) (marker : Marker) : Draft :=
  { draft with markers := draft.markers.insert marker }

def toBar (draft : Draft) : Except Error Bar :=
  (Bar.ofMarkers draft.id draft.ticks draft.markers draft.variation).mapError .bar

end Draft

end ScoreRepeats.Notation
