import ScoreRepeats.Region
import ScoreRepeats.SignedIndex

/-!
# Structures

The repeat structure of a piece: its regions in order and its jump instruction, if it has one. The
bars of all regions in written order are the bars of the piece; the *position* of a bar is its place
there, counted from zero. A bar is looked up by its id, and the first bar with the id is meant.

The same region may stand at several places of a piece. Each place has a label, and places with
equal labels hold one region; two regions that merely have equal bars have different labels.

For look-ups a piece is laid out bar by bar (`Structure.layout`): the bars, the part that owns each of
them, and the position of every id.
-/

set_option autoImplicit false
set_option relaxedAutoImplicit false

namespace ScoreRepeats

/-- The jump at the end of a piece. -/
inductive Kind
  | bare | daCapo | dalSegno
  deriving DecidableEq, Repr

namespace Kind

/-- All kinds, in the order of their names. -/
def all : List Kind := [.bare, .daCapo, .dalSegno]

def name : Kind → String
  | .bare => "bare"
  | .daCapo => "da_capo"
  | .dalSegno => "dal_segno"

def ofName (text : String) : Except AssemblyError Kind :=
  match all.find? fun kind ↦ kind.name == text with
  | none => .error (.unknownKind text (all.map name))
  | some kind => .ok kind

end Kind

/-- A place of a piece and the region that stands there. -/
structure Part where
  label : Nat
  region : Region
  deriving DecidableEq, Repr

/-- A piece: its regions and its jump. -/
structure Structure where
  parts : NonemptyList Part
  kind : Kind
  deriving DecidableEq, Repr

/-- Why a look-up in a structure fails. -/
inductive LookupError
  | unknownBar (id : String)
  | range (first past : Int) (size : Nat)
  | unknownRegion
  deriving DecidableEq, Repr

def LookupError.message : LookupError → String
  | .unknownBar id => "Bar " ++ Text.quoted id ++ " is not part of this structure"
  | .range first past size =>
    Numeral.tell [first, past] s!"Invalid position range {first}..{past} for {size} bars"
  | .unknownRegion => "Region is not part of this structure"

/-- Bars that are laid out one after another, with the part that owns each of them, and for every id
the position of the first bar that has it. -/
structure Layout where
  bars : List Bar
  owners : List Part
  positions : List (String × Nat)
  deriving DecidableEq, Repr

namespace Layout

def empty : Layout := ⟨[], [], []⟩

/-- Lays out one more bar of a part. An id that has a position keeps it. -/
def addBar (part : Part) (layout : Layout) (bar : Bar) : Layout where
  bars := layout.bars ++ [bar]
  owners := layout.owners ++ [part]
  positions :=
    if (layout.positions.lookup bar.id).isSome then layout.positions
    else layout.positions ++ [(bar.id, layout.bars.length)]

/-- Lays out the bars of one more part. -/
def addPart (layout : Layout) (part : Part) : Layout :=
  part.region.bars.foldl (addBar part) layout

end Layout

namespace Structure

/-- The structure of these regions, each of them a region of its own. -/
def ofRegions (regions : NonemptyList Region) (kind : Kind) : Structure :=
  ⟨⟨⟨0, regions.head⟩, (regions.tail.zipIdx 1).map fun (region, label) ↦ ⟨label, region⟩⟩, kind⟩

/-- The structure of parts put together by hand, its kind given by name. -/
def assemble (parts : List Part) (kind : String) : Except AssemblyError Structure :=
  match NonemptyList.ofList? parts with
  | none => .error .noRegions
  | some parts => (Kind.ofName kind).map (Structure.mk parts)

def regions (piece : Structure) : NonemptyList Region := piece.parts.map Part.region

/-! ### Bars and their positions -/

/-- All bars in written order. -/
def bars (piece : Structure) : List Bar := piece.regions.toList.flatMap Region.bars

/-- The number of bars. -/
def size (piece : Structure) : Nat := piece.bars.length

def firstBar (piece : Structure) : Bar := piece.regions.head.firstBar

/-- The last bar, on which a jump instruction has its place. -/
def lastBar (piece : Structure) : Bar := piece.regions.last.lastBar

def ids (piece : Structure) : List String := piece.bars.map Bar.id

/-- The position of the first bar with this id, and past the end if there is none. -/
def locate (piece : Structure) (id : String) : Nat := piece.ids.idxOf id

/-- The bars of the piece, laid out part by part. -/
def layout (piece : Structure) : Layout := piece.parts.toList.foldl Layout.addPart .empty

def position (piece : Structure) (id : String) : Except LookupError Nat :=
  match piece.layout.positions.lookup id with
  | none => .error (.unknownBar id)
  | some position => .ok position

/-- The bar at a position of the piece. Past the end the first bar stands in for it. -/
def barAt (piece : Structure) (position : Nat) : Bar := piece.bars.getD position piece.firstBar

/-- The positions of the bars that pass a test, in order. -/
def positionsWhere (piece : Structure) (test : Bar → Bool) : List Nat :=
  (piece.bars.zipIdx.filter fun (bar, _) ↦ test bar).map Prod.snd

def positionsOf (piece : Structure) (marker : Marker) : List Nat :=
  piece.positionsWhere fun bar ↦ bar.has marker

def positionOf (piece : Structure) (marker : Marker) : Option Nat :=
  (piece.positionsOf marker).head?

/-- The positions of the bars that carry a marker of this name. -/
def positionsNamed (piece : Structure) (name : String) : List Nat :=
  piece.positionsWhere fun bar ↦ bar.hasNamed name

def positionNamed (piece : Structure) (name : String) : Option Nat :=
  (piece.positionsNamed name).head?

/-- The positions of the bars that carry a jump instruction. -/
def jumpPositions (piece : Structure) : List Nat := piece.positionsWhere Bar.hasJump

/-- The bars from one position up to, and without, another. -/
def barsBetween (piece : Structure) (first past : Int) : Except LookupError (List Bar) :=
  if 0 ≤ first ∧ first ≤ past ∧ past ≤ piece.size then
    .ok ((piece.bars.take past.toNat).drop first.toNat)
  else .error (.range first past piece.size)

/-! ### Parts -/

/-- For every bar in written order the part that it belongs to. -/
def owners (piece : Structure) : List Part := piece.layout.owners

/-- The part that owns the bar at a position. -/
def partAt? (piece : Structure) (position : Nat) : Option Part := piece.owners[position]?

/-- The first place of the region with this label in the list of parts. -/
def placeOf? (piece : Structure) (label : Nat) : Option Nat :=
  piece.parts.toList.findIdx? fun part ↦ part.label == label

/-- The part after the first place of a region, or nothing after the last part. -/
def nextPart (piece : Structure) (label : Nat) : Except LookupError (Option Part) :=
  match piece.placeOf? label with
  | none => .error .unknownRegion
  | some place => .ok piece.parts.toList[place + 1]?

/-! ### First facts -/

@[simp] theorem regions_ofRegions (regions : NonemptyList Region) (kind : Kind) :
    (ofRegions regions kind).regions = regions := by
  apply NonemptyList.ext
  simp [ofRegions, Structure.regions, NonemptyList.toList, NonemptyList.map, Function.comp_def]

theorem bars_ne_nil (piece : Structure) : piece.bars ≠ [] := by
  simp [bars, NonemptyList.toList, Region.bars_ne_nil]

theorem head?_bars (piece : Structure) : piece.bars.head? = some piece.firstBar := by
  simp [bars, NonemptyList.toList, firstBar, List.head?_append, Region.head?_bars]

theorem getLast?_bars (piece : Structure) : piece.bars.getLast? = some piece.lastBar := by
  obtain ⟨earlier, split⟩ := List.getLast?_eq_some_iff.1 piece.regions.getLast?_toList
  simp [bars, lastBar, split, Region.getLast?_bars]

end Structure

end ScoreRepeats
