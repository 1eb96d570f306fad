import ScoreRepeats.MarkerSet
import ScoreRepeats.Number.Numeral
import ScoreRepeats.Text.Quoted

/-!
# Bars

A bar as far as repeats are concerned: its id, its length in ticks, the markers on it and, in an
alternate ending, the number of its variation. The type holds only bars that make sense: a positive
length, markers that can share a bar, and in a variation none that would start a repeat or jump.
`Bar.ofMarkers` and `Bar.make` build a bar or say what is wrong with it.
-/

set_option autoImplicit false
set_option relaxedAutoImplicit false

namespace ScoreRepeats

/-- One bar of a score. -/
structure Bar where
  id : String
  ticks : Nat
  markers : MarkerSet
  variation : Option Nat
  ticks_pos : 0 < ticks
  compatible : markers.isCompatible = true
  variation_ne_zero : variation ≠ some 0
  not_barred : variation ≠ none → markers.barredFromVariations = []
  deriving DecidableEq, Repr

/-- Why there is no such bar. -/
inductive BarError
  | length (id : String) (ticks : Int)
  | unknownMarkers (id : String) (names : List String)
  /-- A marker, and those that cannot share a bar with it. -/
  | clash (id : String) (marker : Marker) (others : List Marker)
  | variationNumber (id : String) (number : Int)
  | barredMarkers (id : String) (markers : List Marker)
  deriving DecidableEq, Repr

/-- Names between quotes, as a list. -/
def quotedList (names : List String) : String := Text.bracketed (names.map Text.quoted)

def quotedMarkers (markers : List Marker) : String := quotedList (markers.map Marker.name)

/-- The complaint without the bar that it is about. -/
def BarError.complaint : BarError → String
  | .length _ ticks => s!"tick length must be positive, got {ticks}"
  | .unknownMarkers _ names => "unknown markers " ++ quotedList names
  | .clash _ marker others =>
    Text.quoted marker.name ++ " cannot share a bar with " ++ quotedMarkers others
  | .variationNumber _ number => s!"variation index must be 1 or more, got {number}"
  | .barredMarkers _ markers => "a variation bar cannot carry " ++ quotedMarkers markers

def BarError.id : BarError → String
  | .length id _ | .unknownMarkers id _ | .clash id _ _ | .variationNumber id _
  | .barredMarkers id _ => id

/-- The numbers in the message. -/
def BarError.numbers : BarError → List Int
  | .length _ number | .variationNumber _ number => [number]
  | _ => []

def BarError.message (error : BarError) : String :=
  Numeral.tell error.numbers ("Bar " ++ Text.quoted error.id ++ ": " ++ error.complaint)

namespace Bar

theorem none_ne_some_zero : none ≠ some 0 := nofun

/-- The bar with these parts, if there is one. -/
def ofMarkers (id : String) (ticks : Int) (markers : MarkerSet) (variation : Option Int) :
    Except BarError Bar :=
  if positive : 0 < ticks then
    match clash : markers.clash? with
    | some (marker, others) => .error (.clash id marker others)
    | none =>
      have compatible : markers.isCompatible = true := Option.isNone_iff_eq_none.mpr clash
      have length_pos : 0 < ticks.toNat := Int.lt_toNat.mpr positive
      match variation with
      | none =>
        .ok ⟨id, ticks.toNat, markers, none, length_pos, compatible, none_ne_some_zero,
          (absurd rfl ·)⟩
      | some number =>
        if numbered : 1 ≤ number then
          if allowed : markers.barredFromVariations = [] then
            have number_pos : 0 < number.toNat := Int.lt_toNat.mpr numbered
            .ok ⟨id, ticks.toNat, markers, some number.toNat, length_pos, compatible,
              mt Option.some.inj (Nat.ne_of_gt number_pos), fun _ ↦ allowed⟩
          else .error (.barredMarkers id markers.barredFromVariations)
        else .error (.variationNumber id number)
  else .error (.length id ticks)

/-- The names that no marker has, each once and in the order of their codes. -/
def unknownNames (names : List String) : List String :=
  let unknown := names.filter fun name ↦ (Marker.ofName? name).isNone
  (unknown.mergeSort fun a b ↦ !Text.precedes b.toList a.toList).eraseDups

/-- The bar with these parts, its markers given by name. The length is looked at before the names,
and the names before the rest. -/
def make (id : String) (ticks : Int) (names : List String) (variation : Option Int) :
    Except BarError Bar :=
  if ticks ≤ 0 then .error (.length id ticks)
  else match unknownNames names with
    | [] => ofMarkers id ticks (MarkerSet.ofList (names.filterMap Marker.ofName?)) variation
    | unknown => .error (.unknownMarkers id unknown)

def has (bar : Bar) (marker : Marker) : Bool := bar.markers.has marker

/-- Whether the bar carries a marker of this name. -/
def hasNamed (bar : Bar) (name : String) : Bool := (Marker.ofName? name).any bar.has

/-- Whether the bar carries a jump instruction. -/
def hasJump (bar : Bar) : Bool := bar.markers.hasJump

/-- The jump instructions are Da Capo and Dal Segno. -/
theorem hasJump_iff (bar : Bar) :
    bar.hasJump = true ↔ bar.has .daCapo = true ∨ bar.has .dalSegno = true := by
  simp [hasJump, MarkerSet.hasJump, MarkerSet.toList, Marker.all, Marker.isJump, has]

/-- The names of the markers, in order. -/
def markerNames (bar : Bar) : List String := bar.markers.toList.map Marker.name

/-- The bar for a reader: its id, the number of its variation in brackets, its marks. There is no
such text if the number is too long to be written. -/
def text? (bar : Bar) : Option String :=
  let marks := bar.markers.toList.map Marker.symbol
  match bar.variation with
  | none => some (" ".intercalate (bar.id :: marks))
  | some number =>
    if Numeral.isWritable number then some (" ".intercalate ((bar.id ++ s!"[{number}]") :: marks))
    else none

end Bar

end ScoreRepeats
