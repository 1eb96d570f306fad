import ScoreRepeats.Structure

/-!
# Marker indices

Where the marks of navigation stand in a piece. An index is normally collected from the piece; one
made by hand may hold any numbers.
-/

set_option autoImplicit false
set_option relaxedAutoImplicit false

namespace ScoreRepeats

/-- The positions of the marks of navigation, each only if there is such a mark. -/
structure MarkerIndex where
  segno : Option Int
  fine : Option Int
  codaFirst : Option Int
  codaSecond : Option Int
  jump : Option Int
  deriving DecidableEq, Repr

namespace MarkerIndex

/-- The first place of every mark. -/
def collect (piece : Structure) : MarkerIndex where
  segno := (piece.positionOf .segno).map Int.ofNat
  fine := (piece.positionOf .fine).map Int.ofNat
  codaFirst := (piece.positionOf .codaFirst).map Int.ofNat
  codaSecond := (piece.positionOf .codaSecond).map Int.ofNat
  jump := piece.jumpPositions.head?.map Int.ofNat

/-- A first Coda without a second one after it. -/
def unpairedCoda? (index : MarkerIndex) : Option Int :=
  index.codaFirst.filter fun first ↦ !index.codaSecond.any fun second ↦ decide (first < second)

/-- A field for a reader. -/
def fieldText : Option Int → String
  | none => "None"
  | some position => toString position

/-- The index for a reader. -/
def text (index : MarkerIndex) : String :=
  "MarkerIndex(segno=" ++ fieldText index.segno ++ ", fine=" ++ fieldText index.fine
    ++ ", coda_first=" ++ fieldText index.codaFirst ++ ", coda_second="
    ++ fieldText index.codaSecond ++ ", jump=" ++ fieldText index.jump ++ ")"

end MarkerIndex

end ScoreRepeats
