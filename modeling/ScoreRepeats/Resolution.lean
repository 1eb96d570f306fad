import ScoreRepeats.PlayingOrder
import ScoreRepeats.Validation

/-!
# Resolution

From the structure of a piece to the bars that sound. The piece is first played from top to bottom:
repeats twice, and before every variation the common passage. After a jump it is played again, from
the first bar or the Segno: now repeats sound once and of the variations only the last. This replay
ends with the Fine bar, or before the first bar past it, and at the first Coda it goes on after the
second.

The two readings of a region are `Region.forward` and `Region.replay`; `navigate` applies the marks
to a replay. `Structure.resolveWith` plays a piece by a given marker index, and
`Structure.resolve` indexes the piece itself and refuses one that it could not play.
-/

set_option autoImplicit false
set_option relaxedAutoImplicit false

namespace ScoreRepeats

/-- Why a piece cannot be played. -/
inductive ResolutionError
  | noSegno
  | unpairedCoda (position : Int)
  | repeatedIds
  /-- A mark is needed that the index does not have. -/
  | missingMark
  /-- The second Coda of the index stands before the first, and the replay never leaves it. -/
  | endlessCoda
  deriving DecidableEq, Repr

def ResolutionError.message : ResolutionError → String
  | .noSegno => "D.S. structure has no Segno to return to"
  | .unpairedCoda position => s!"Coda at position {position} has no second Coda after it to jump to"
  | .repeatedIds => "Bar ids are not unique, positions cannot be resolved"
  | .missingMark => "a mark that the replay needs is not indexed"
  | .endlessCoda => "the second Coda stands before the first"

/-! ### The two readings of a region -/

/-- A run of bars by their positions. -/
def BarRun.play (run : BarRun) (locate : String → Nat) : List Nat :=
  run.toList.map fun bar ↦ locate bar.id

/-- A passage at first playing: twice between repeat marks. -/
def Passage.forward (passage : Passage) (locate : String → Nat) : List Nat :=
  match passage with
  | .straight run => run.play locate
  | .repeated run => run.play locate ++ run.play locate

/-- A passage in the replay: once. -/
def Passage.replay (passage : Passage) (locate : String → Nat) : List Nat :=
  passage.run.play locate

/-- A region at first playing: before each variation the common passage. -/
def Region.forward (region : Region) (locate : String → Nat) : List Nat :=
  match region with
  | .plain passage => passage.forward locate
  | .varied common variations =>
    variations.toList.flatMap fun variation ↦ common.forward locate ++ variation.play locate

/-- A region in the replay: the common passage and the last variation. -/
def Region.replay (region : Region) (locate : String → Nat) : List Nat :=
  match region with
  | .plain passage => passage.replay locate
  | .varied common variations => common.replay locate ++ variations.last.play locate

/-! ### Navigation -/

/-- The part of a replay that sounds, by the marks. The position of the first Coda and all up to the
second are passed over, which has no end if the second stands before the first; the position of Fine
is the last; one past it does not sound. -/
def navigate (index : MarkerIndex) : List Nat → Except ResolutionError (List Nat)
  | [] => .ok []
  | position :: rest =>
    if index.codaFirst = some (position : Int) then
      match index.codaSecond with
      | none => .error .missingMark
      | some second =>
        if (position : Int) ≤ second then
          navigate index (rest.dropWhile fun later ↦ decide ((later : Int) ≤ second))
        else .error .endlessCoda
    else if index.fine.any fun fine ↦ decide (fine < (position : Int)) then .ok []
    else if index.fine = some (position : Int) then .ok [position]
    else (navigate index rest).map (position :: ·)
termination_by positions => positions.length
decreasing_by
  · exact Nat.lt_succ_of_le (List.dropWhile_suffix _).length_le
  · exact Nat.lt_succ_self _

/-- The entries for a list of positions, after those for some earlier ones. -/
def Structure.entriesAfter (piece : Structure) (earlier : List Nat) : List Nat → List PlayedBar
  | [] => []
  | position :: rest =>
    let bar := piece.barAt position
    ⟨bar.id, earlier.count position + 1, position, bar.ticks⟩
      :: piece.entriesAfter (position :: earlier) rest

namespace Structure

/-- The positions of the first playing. -/
def forward (piece : Structure) : List Nat :=
  piece.regions.toList.flatMap fun region ↦ region.forward piece.locate

/-- The positions of a replay of the whole piece, whatever its marks. -/
def replay (piece : Structure) : List Nat :=
  piece.regions.toList.flatMap fun region ↦ region.replay piece.locate

/-- Whether the pickup is left out of the replay: it is shorter than a full bar, and the last bar is
complete without it. -/
def skipsPickup (piece : Structure) (rhythm : Option Rhythm) (auftakt : Bool) : Bool :=
  let full := Rhythm.fullBarOf rhythm
  auftakt && decide (1 < piece.size ∧ piece.lastBar.ticks = full ∧ piece.firstBar.ticks < full)

/-- The position from which the replay sounds. -/
def replayStart (piece : Structure) (rhythm : Option Rhythm) (auftakt : Bool)
    (index : MarkerIndex) : Except ResolutionError Int :=
  match piece.kind, index.segno with
  | .dalSegno, none => .error .missingMark
  | .dalSegno, some segno => .ok segno
  | _, _ => .ok (if piece.skipsPickup rhythm auftakt then 1 else 0)

/-- The positions of the part of the replay that sounds. -/
def replayed (piece : Structure) (rhythm : Option Rhythm) (auftakt : Bool) (index : MarkerIndex) :
    Except ResolutionError (List Nat) :=
  match piece.kind with
  | .bare => .ok []
  | _ =>
    match piece.replayStart rhythm auftakt index with
    | .error error => .error error
    | .ok start =>
      navigate index (piece.replay.dropWhile fun position ↦ decide ((position : Int) < start))

/-- The order in which a piece is played by a marker index. -/
def resolveWith (piece : Structure) (rhythm : Option Rhythm) (auftakt : Bool)
    (index : MarkerIndex) : Except ResolutionError PlayingOrder :=
  (piece.replayed rhythm auftakt index).map fun replayed ↦
    ⟨piece.entriesAfter [] (piece.forward ++ replayed)⟩

/-- What keeps a piece from being played by its own index. -/
def inconsistency (piece : Structure) : Option ResolutionError :=
  let index := MarkerIndex.collect piece
  if piece.kind = .dalSegno ∧ index.segno = none then some .noSegno
  else match index.unpairedCoda? with
    | some first => some (.unpairedCoda first)
    | none => if piece.ids.Nodup then none else some .repeatedIds

/-- The order in which a piece is played that was not validated. -/
def resolve (piece : Structure) (rhythm : Option Rhythm) (auftakt : Bool) :
    Except ResolutionError PlayingOrder :=
  match piece.inconsistency with
  | some error => .error error
  | none => piece.resolveWith rhythm auftakt (MarkerIndex.collect piece)

end Structure

end ScoreRepeats
