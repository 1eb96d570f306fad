import ScoreRepeats.Number.Numeral
import ScoreRepeats.Structure

/-!
# Violations

What can be wrong with the repeats of a score. A violation names its cause; from it follow the rule
that is broken, the positions of the bars at fault and a message. A number in the message may be too
long to be written. Then the violation cannot be told, and all that is left of it is a complaint
about the number (`Violation.refusal`).
-/

set_option autoImplicit false
set_option relaxedAutoImplicit false

namespace ScoreRepeats

/-- The rules on the structure of a piece. -/
inductive Rule
  | malformedStructure
  | duplicateBarId
  | missingSegno
  | unexpectedSegno
  | duplicatedSegno
  | fineWithoutJump
  | duplicatedFine
  | segnoAfterFine
  | codaWithoutJump
  | codaCountInvalid
  | codaOrderInvalid
  | codaAfterFine
  | insufficientVariations
  | duplicatedJump
  | misplacedJump
  | auftaktArithmeticMismatch
  deriving DecidableEq, Repr

/-- The stable code under which a broken rule is reported. -/
def Rule.code : Rule → String
  | .malformedStructure => "malformed_structure"
  | .duplicateBarId => "duplicate_bar_id"
  | .missingSegno => "missing_segno"
  | .unexpectedSegno => "unexpected_segno"
  | .duplicatedSegno => "duplicated_segno"
  | .fineWithoutJump => "fine_without_jump"
  | .duplicatedFine => "duplicated_fine"
  | .segnoAfterFine => "segno_after_fine"
  | .codaWithoutJump => "coda_without_jump"
  | .codaCountInvalid => "coda_count_invalid"
  | .codaOrderInvalid => "coda_order_invalid"
  | .codaAfterFine => "coda_after_fine"
  | .insufficientVariations => "insufficient_variations"
  | .duplicatedJump => "duplicated_jump"
  | .misplacedJump => "misplaced_jump"
  | .auftaktArithmeticMismatch => "auftakt_arithmetic_mismatch"

/-- The code that stands for any broken rule. -/
def Rule.anyCode : String := "structural_violation"

/-- A broken rule with its cause. -/
inductive Violation
  /-- Two bars share an id. -/
  | repeatedId (id : String) (first again : Nat)
  /-- A score without bars. -/
  | noBars
  /-- Variations that do not begin with the first. -/
  | variationBeforeFirst (id : String) (number position : Nat)
  /-- A first variation with nothing before it to share. -/
  | noCommonPassage (id : String) (position : Nat)
  /-- A variation that is neither the current one nor the next. -/
  | variationOutOfTurn (id : String) (number current position : Nat)
  /-- A repeat that starts inside another. -/
  | repeatInsideRepeat (id : String) (start position : Nat)
  | repeatNeverClosed (id : String) (start : Nat)
  | jumpTwice (jumps : List Nat)
  | jumpNotLast (id : String) (jumps : List Nat)
  | noSegno (jumps : List Nat)
  | segnoTwice (segnos : List Nat)
  | segnoUnused (kind : Kind) (segnos : List Nat)
  | fineUnused (fines : List Nat)
  | fineTwice (fines : List Nat)
  | segnoNotBeforeFine (segno fine : Nat)
  | codaUnused (codas : List Nat)
  | codaNotPaired (codas : List Nat)
  | codasReversed (first second : Nat)
  | codasNotBeforeFine (first second fine : Nat)
  | tooFewVariations (id : String) (count position : Nat)
  /-- A pickup and a last bar that do not complete each other. -/
  | pickupIncomplete (pickup last full lastPosition : Nat)
  deriving DecidableEq, Repr

namespace Violation

def rule : Violation → Rule
  | .repeatedId .. => .duplicateBarId
  | .noBars | .variationBeforeFirst .. | .noCommonPassage .. | .variationOutOfTurn ..
  | .repeatInsideRepeat .. | .repeatNeverClosed .. => .malformedStructure
  | .jumpTwice .. => .duplicatedJump
  | .jumpNotLast .. => .misplacedJump
  | .noSegno .. => .missingSegno
  | .segnoTwice .. => .duplicatedSegno
  | .segnoUnused .. => .unexpectedSegno
  | .fineUnused .. => .fineWithoutJump
  | .fineTwice .. => .duplicatedFine
  | .segnoNotBeforeFine .. => .segnoAfterFine
  | .codaUnused .. => .codaWithoutJump
  | .codaNotPaired .. => .codaCountInvalid
  | .codasReversed .. => .codaOrderInvalid
  | .codasNotBeforeFine .. => .codaAfterFine
  | .tooFewVariations .. => .insufficientVariations
  | .pickupIncomplete .. => .auftaktArithmeticMismatch

/-- The positions of the bars at fault. -/
def positions : Violation → List Nat
  | .repeatedId _ first again => [first, again]
  | .noBars => []
  | .variationBeforeFirst _ _ position | .noCommonPassage _ position
  | .variationOutOfTurn _ _ _ position => [position]
  | .repeatInsideRepeat _ start position => [start, position]
  | .repeatNeverClosed _ start => [start]
  | .jumpTwice jumps | .jumpNotLast _ jumps | .noSegno jumps => jumps
  | .segnoTwice segnos | .segnoUnused _ segnos => segnos
  | .fineUnused fines | .fineTwice fines => fines
  | .segnoNotBeforeFine segno fine => [segno, fine]
  | .codaUnused codas | .codaNotPaired codas => codas
  | .codasReversed first second => [first, second]
  | .codasNotBeforeFine first second fine => [first, second, fine]
  | .tooFewVariations _ _ position => [position]
  | .pickupIncomplete _ _ _ lastPosition => [0, lastPosition]

/-- The numbers in the message that the score gives, and which may be of any size. -/
def quantities : Violation → List Nat
  | .variationBeforeFirst _ number _ | .variationOutOfTurn _ number _ _ => [number]
  | .pickupIncomplete pickup last _ _ => [pickup, last]
  | _ => []

/-- Whether all numbers of the message are short enough to be written. -/
def isWritable (violation : Violation) : Bool :=
  violation.quantities.all fun number ↦ Numeral.isWritable number

/-- Only violations of the form of a score, and of the pickup, tell of such numbers. -/
theorem quantities_eq_nil {violation : Violation} (hform : violation.rule ≠ .malformedStructure)
    (hpickup : violation.rule ≠ .auftaktArithmeticMismatch) : violation.quantities = [] := by
  cases violation <;> first | rfl | exact absurd rfl hform | exact absurd rfl hpickup

def message : Violation → String
  | .repeatedId id first again =>
    "Bar id " ++ Text.quoted id ++ s!" is used at positions {first} and {again}"
  | .noBars => "A structure needs at least one bar"
  | .variationBeforeFirst id number _ =>
    "Bar " ++ Text.quoted id ++ s!" starts variation {number} without variation 1 before it"
  | .noCommonPassage id _ =>
    "Variation 1 at bar " ++ Text.quoted id ++ " has no common region before it"
  | .variationOutOfTurn id number current _ =>
    "Bar " ++ Text.quoted id ++ s!" has variation {number} but variation {current} is the current one"
  | .repeatInsideRepeat id _ _ =>
    "Repeat starting at bar " ++ Text.quoted id ++ " is not closed before the next repeat starts"
  | .repeatNeverClosed id _ => "Repeat starting at bar " ++ Text.quoted id ++ " is never closed"
  | .jumpTwice jumps =>
    let count := jumps.length
    s!"Found {count} D.C./D.S. instructions, expected at most one"
  | .jumpNotLast id _ =>
    "D.C./D.S. instruction on bar " ++ Text.quoted id ++ " must be on the final bar"
  | .noSegno _ => "D.S. structure has no Segno"
  | .segnoTwice segnos =>
    let count := segnos.length
    s!"D.S. structure has {count} Segno markers, expected one"
  | .segnoUnused kind _ => "Segno found in a " ++ kind.name ++ " structure"
  | .fineUnused _ => "Fine found without a D.C. or D.S. instruction"
  | .fineTwice fines =>
    let count := fines.length
    s!"Found {count} Fine markers, expected at most one"
  | .segnoNotBeforeFine _ _ => "Segno must come before Fine"
  | .codaUnused _ => "Coda found without a D.C. or D.S. instruction"
  | .codaNotPaired codas =>
    let count := codas.length
    s!"Found {count} Coda markers, expected none or one pair"
  | .codasReversed _ _ => "The first Coda must come before the second"
  | .codasNotBeforeFine _ _ _ => "The Coda pair must come before Fine"
  | .tooFewVariations id count _ =>
    "Variation region starting at bar " ++ Text.quoted id
      ++ s!" has {count} variation, expected at least 2"
  | .pickupIncomplete pickup last full _ =>
    s!"Pickup ({pickup} ticks) and D.C. bar ({last} ticks) do not make a full bar of {full} ticks"

end Violation

/-- How bars are refused: for a violation that is told, or only for a number in its message that is
too long to be written. -/
inductive Refusal
  | violation (violation : Violation)
  | unwritable
  deriving DecidableEq, Repr

namespace Violation

/-- The refusal for a violation. -/
def refusal (violation : Violation) : Refusal :=
  if violation.isWritable then .violation violation else .unwritable

theorem refusal_eq_violation_iff {violation told : Violation} :
    violation.refusal = .violation told ↔ violation.isWritable = true ∧ violation = told := by
  unfold refusal
  split <;> simp [*]

theorem refusal_eq_unwritable_iff {violation : Violation} :
    violation.refusal = .unwritable ↔ violation.isWritable = false := by
  unfold refusal
  split <;> simp [*]

end Violation

end ScoreRepeats
