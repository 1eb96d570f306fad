import ScoreRepeats.Grouping
import ScoreRepeats.Resolution

/-!
# Performances

From the bars of a score to the order in which they are played: the bars are grouped, the structure
is validated, and the valid structure is resolved.
-/

set_option autoImplicit false
set_option relaxedAutoImplicit false

namespace ScoreRepeats

/-- Why a score cannot be performed. -/
inductive PerformanceError
  | refused (refusal : Refusal)
  | resolution (error : ResolutionError)
  deriving DecidableEq, Repr

/-- The order in which the bars of a score are played. -/
def perform (bars : List Bar) (rhythm : Option Rhythm) (auftakt : Bool) :
    Except PerformanceError PlayingOrder :=
  match Structure.ofBars bars with
  | .error refusal => .error (.refused refusal)
  | .ok piece =>
    match piece.validate rhythm auftakt with
    | .error refusal => .error (.refused refusal)
    | .ok index => (piece.resolveWith rhythm auftakt index).mapError .resolution

end ScoreRepeats
