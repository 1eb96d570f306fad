/-!
# Note lengths

The standard note lengths in ticks. A quarter note has 240 of them.
-/

set_option autoImplicit false
set_option relaxedAutoImplicit false

namespace ScoreRepeats

/-- The ticks of a quarter note. -/
def ticksPerQuarter : Nat := 240

/-- The ticks of a whole note. -/
def ticksPerWhole : Nat := 4 * ticksPerQuarter

/-- A standard note length. -/
inductive NoteLength
  | sixtyFourth | thirtySecond | sixteenth | eighth | quarter | dottedQuarter | half | dottedHalf
  | whole
  deriving DecidableEq, Repr

/-- The length in ticks; a dot adds half of the length. -/
def NoteLength.ticks : NoteLength → Nat
  | .sixtyFourth => ticksPerWhole / 64
  | .thirtySecond => ticksPerWhole / 32
  | .sixteenth => ticksPerWhole / 16
  | .eighth => ticksPerWhole / 8
  | .quarter => ticksPerQuarter
  | .dottedQuarter => ticksPerQuarter + ticksPerQuarter / 2
  | .half => ticksPerWhole / 2
  | .dottedHalf => ticksPerWhole / 2 + ticksPerWhole / 4
  | .whole => ticksPerWhole

end ScoreRepeats
