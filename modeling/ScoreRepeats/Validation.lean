import ScoreRepeats.MarkerIndex
import ScoreRepeats.Rhythm
import ScoreRepeats.Violation

/-!
# Validation

The rules that the marks of a piece must keep, one function for each group of rules. Each gives the
violation that it finds, if any; `Structure.firstViolation` asks them in order. A piece that breaks
no rule gets the index of its marks from one pass over its bars (`Structure.scanned`), which is the
index that looking up each mark by itself gives (`index_scanned`).
-/

set_option autoImplicit false
set_option relaxedAutoImplicit false

namespace ScoreRepeats

/-- The positions of the marks of navigation, mark by mark and each list in order. -/
@[ext] structure MarkerPositions where
  segnos : List Nat
  fines : List Nat
  firstCodas : List Nat
  secondCodas : List Nat
  jumps : List Nat

namespace MarkerPositions

def empty : MarkerPositions := ⟨[], [], [], [], []⟩

/-- Notes the marks of the bar at a position, behind those noted before. -/
def note (marks : MarkerPositions) (bar : Bar) (position : Nat) : MarkerPositions where
  segnos := if bar.has .segno then marks.segnos ++ [position] else marks.segnos
  fines := if bar.has .fine then marks.fines ++ [position] else marks.fines
  firstCodas := if bar.has .codaFirst then marks.firstCodas ++ [position] else marks.firstCodas
  secondCodas := if bar.has .codaSecond then marks.secondCodas ++ [position] else marks.secondCodas
  jumps := if bar.hasJump then marks.jumps ++ [position] else marks.jumps

/-- The index with the first position of every mark. -/
def index (marks : MarkerPositions) : MarkerIndex where
  segno := marks.segnos.head?.map Int.ofNat
  fine := marks.fines.head?.map Int.ofNat
  codaFirst := marks.firstCodas.head?.map Int.ofNat
  codaSecond := marks.secondCodas.head?.map Int.ofNat
  jump := marks.jumps.head?.map Int.ofNat

end MarkerPositions

namespace Structure

/-- The marks of all bars, noted in one pass. -/
def scanned (piece : Structure) : MarkerPositions :=
  piece.bars.zipIdx.foldl (fun marks (bar, position) ↦ marks.note bar position) .empty

/-- The first bar whose id stood on an earlier bar. -/
def idViolation (piece : Structure) : Option Violation :=
  piece.ids.zipIdx.findSome? fun (id, position) ↦
    if piece.locate id < position then some (.repeatedId id (piece.locate id) position) else none

/-- At most one jump instruction, and that on the last bar. -/
def jumpViolation (piece : Structure) : Option Violation :=
  match piece.jumpPositions with
  | [] => none
  | [jump] =>
    if jump + 1 = piece.size then none else some (.jumpNotLast (piece.barAt jump).id [jump])
  | jumps => some (.jumpTwice jumps)

/-- One Segno in a Dal Segno piece, none in another. -/
def segnoViolation (piece : Structure) : Option Violation :=
  match piece.kind, piece.positionsOf .segno with
  | .dalSegno, [] => some (.noSegno piece.jumpPositions)
  | .dalSegno, [_] => none
  | .dalSegno, segnos => some (.segnoTwice segnos)
  | _, [] => none
  | kind, segnos => some (.segnoUnused kind segnos)

/-- At most one Fine, only where there is a jump, and after the Segno. -/
def fineViolation (piece : Structure) : Option Violation :=
  match piece.positionsOf .fine with
  | [] => none
  | fine :: more =>
    if piece.kind = .bare then some (.fineUnused (fine :: more))
    else if more ≠ [] then some (.fineTwice (fine :: more))
    else match piece.positionOf .segno with
      | none => none
      | some segno => if segno < fine then none else some (.segnoNotBeforeFine segno fine)

/-- No Coda, or one pair in order and before Fine, only where there is a jump. -/
def codaViolation (piece : Structure) : Option Violation :=
  match piece.positionsWhere fun bar ↦ bar.has .codaFirst || bar.has .codaSecond with
  | [] => none
  | codas =>
    if piece.kind = .bare then some (.codaUnused codas)
    else match piece.positionsOf .codaFirst, piece.positionsOf .codaSecond with
      | [first], [second] =>
        if second ≤ first then some (.codasReversed first second)
        else match piece.positionOf .fine with
          | none => none
          | some fine => if second < fine then none else some (.codasNotBeforeFine first second fine)
      | _, _ => some (.codaNotPaired codas)

/-- At least two variations after every common passage. -/
def variationViolation (piece : Structure) : Option Violation :=
  piece.regions.toList.findSome? fun
    | .plain _ => none
    | .varied common variations =>
      if 2 ≤ variations.length then none
      else
        let id := common.firstBar.id
        some (.tooFewVariations id variations.length (piece.locate id))

/-- In a Da Capo piece with a pickup the last bar is full, or the pickup completes it. -/
def pickupViolation (piece : Structure) (rhythm : Option Rhythm) (auftakt : Bool) :
    Option Violation :=
  let full := Rhythm.fullBarOf rhythm
  let pickup := piece.firstBar.ticks
  let last := piece.lastBar.ticks
  if auftakt = true ∧ piece.kind = .daCapo ∧ last ≠ full ∧ pickup + last ≠ full then
    some (.pickupIncomplete pickup last full (piece.size - 1))
  else none

/-- The first rule that a piece breaks. -/
def firstViolation (piece : Structure) (rhythm : Option Rhythm) (auftakt : Bool) :
    Option Violation :=
  [piece.idViolation, piece.jumpViolation, piece.segnoViolation, piece.fineViolation,
    piece.codaViolation, piece.variationViolation,
    piece.pickupViolation rhythm auftakt].findSome? id

/-- The marker index of a piece that breaks no rule, from one pass over its bars. A piece that breaks
one is refused. -/
def validate (piece : Structure) (rhythm : Option Rhythm) (auftakt : Bool) :
    Except Refusal MarkerIndex :=
  match piece.firstViolation rhythm auftakt with
  | some violation => .error violation.refusal
  | none => .ok piece.scanned.index

/-! ### The scan and the look-ups -/

/-- A list of positions that is lengthened for the bars that pass a test ends with the positions of
these bars. -/
theorem field_foldl_note (field : MarkerPositions → List Nat) (test : Bar → Bool)
    (hnote : ∀ marks bar position, field (MarkerPositions.note marks bar position) =
      if test bar then field marks ++ [position] else field marks)
    (numbered : List (Bar × Nat)) (marks : MarkerPositions) :
    field (numbered.foldl (fun marks (bar, position) ↦ marks.note bar position) marks) =
      field marks ++ (numbered.filter fun (bar, _) ↦ test bar).map Prod.snd := by
  induction numbered generalizing marks with
  | nil => simp
  | cons first rest ih =>
    rw [List.foldl_cons, ih, hnote]
    cases htest : test first.1 <;> simp [htest]

/-- The scan finds for every mark the positions of the bars that carry it. -/
theorem scanned_eq (piece : Structure) :
    piece.scanned = ⟨piece.positionsOf .segno, piece.positionsOf .fine, piece.positionsOf .codaFirst,
      piece.positionsOf .codaSecond, piece.jumpPositions⟩ := by
  have hscan := fun field test hnote ↦ field_foldl_note field test hnote piece.bars.zipIdx .empty
  exact MarkerPositions.ext
    (hscan MarkerPositions.segnos (·.has .segno) fun _ _ _ ↦ rfl)
    (hscan MarkerPositions.fines (·.has .fine) fun _ _ _ ↦ rfl)
    (hscan MarkerPositions.firstCodas (·.has .codaFirst) fun _ _ _ ↦ rfl)
    (hscan MarkerPositions.secondCodas (·.has .codaSecond) fun _ _ _ ↦ rfl)
    (hscan MarkerPositions.jumps Bar.hasJump fun _ _ _ ↦ rfl)

/-- The scan gives the index that the look-ups of the marks give. -/
theorem index_scanned (piece : Structure) : piece.scanned.index = MarkerIndex.collect piece := by
  rw [scanned_eq]
  rfl

end Structure

end ScoreRepeats
