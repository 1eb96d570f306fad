import ScoreRepeats.NoteLength
import ScoreRepeats.Number.Numeral
import ScoreRepeats.Text.Quoted

/-!
# Rhythms

Time signatures: so many beats of such a note value in a bar. A rhythm gives the length of a full
bar, can be written and read as `3/4`, and travels in the meta messages of a MIDI file.
-/

set_option autoImplicit false
set_option relaxedAutoImplicit false

namespace ScoreRepeats

namespace Rhythm

/-- The fewest beats of a bar. -/
def minNumerator : Nat := 1

/-- The most beats of a bar. -/
def maxNumerator : Nat := 99

/-- The note values that can carry the beat. -/
def denominators : List Nat := [2, 4, 8, 16, 32, 64]

end Rhythm

/-- A time signature. -/
structure Rhythm where
  numerator : Nat
  denominator : Nat
  numerator_range : Rhythm.minNumerator ≤ numerator ∧ numerator ≤ Rhythm.maxNumerator := by decide
  denominator_mem : denominator ∈ Rhythm.denominators := by decide
  deriving DecidableEq, Repr

/-- Why there is no such rhythm. -/
inductive RhythmError
  | numerator (number : Int)
  | denominator (number : Int)
  | form (text : String)
  | messageKind (kind : String)
  deriving DecidableEq, Repr

namespace Rhythm

/-- Common time, which holds where no rhythm is declared. -/
def common : Rhythm := { numerator := 4, denominator := 4 }

end Rhythm

def RhythmError.message : RhythmError → String
  | .numerator number =>
    let (low, high) := (Rhythm.minNumerator, Rhythm.maxNumerator)
    Numeral.tell [number] s!"Numerator must be between {low} and {high}, got {number}"
  | .denominator number =>
    let choices := ", ".intercalate (Rhythm.denominators.map toString)
    Numeral.tell [number] s!"Denominator must be one of ({choices}), got {number}"
  | .form text => "Time signature must look like '3/4', got " ++ Text.quoted text
  | .messageKind kind => "Expected a time_signature message, got " ++ Text.quoted kind

/-- A meta message of a MIDI file. Only time signatures are told apart; the others have the name of
their kind. -/
inductive MetaMessage
  | timeSignature (numerator denominator : Int) (time : Int)
  | other (kind : String)
  deriving DecidableEq, Repr

namespace Rhythm

def make (numerator denominator : Int) : Except RhythmError Rhythm :=
  if range : minNumerator ≤ numerator.toNat ∧ numerator.toNat ≤ maxNumerator then
    if known : denominator.toNat ∈ denominators then
      .ok ⟨numerator.toNat, denominator.toNat, range, known⟩
    else .error (.denominator denominator)
  else .error (.numerator numerator)

/-- The ticks of a full bar. -/
def fullBar (rhythm : Rhythm) : Nat := rhythm.numerator * ticksPerWhole / rhythm.denominator

/-- The ticks of a full bar where a rhythm may be missing. -/
def fullBarOf (rhythm : Option Rhythm) : Nat := (rhythm.getD common).fullBar

def text (rhythm : Rhythm) : String :=
  let (numerator, denominator) := (rhythm.numerator, rhythm.denominator)
  s!"{numerator}/{denominator}"

/-- Reads a time signature: two numerals with a stroke between them. -/
def parse (text : String) : Except RhythmError Rhythm :=
  match Text.splitAt '/' (Text.strip text.toList) with
  | [numerator, denominator] =>
    match Numeral.read numerator, Numeral.read denominator with
    | .ok numerator, .ok denominator => make numerator denominator
    | _, _ => .error (.form text)
  | _ => .error (.form text)

def ofMessage : MetaMessage → Except RhythmError Rhythm
  | .timeSignature numerator denominator _ => make numerator denominator
  | .other kind => .error (.messageKind kind)

def toMessage (rhythm : Rhythm) (time : Int) : MetaMessage :=
  .timeSignature rhythm.numerator rhythm.denominator time

end Rhythm

end ScoreRepeats
