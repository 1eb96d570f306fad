import ScoreRepeats.SignedIndex
import ScoreRepeats.Text.Quoted

/-!
# Playing orders

The bars of a piece as they sound, one entry for every sounding, with the number of the pass, and
the timeline that follows from their lengths. The start of an entry is the sum of the lengths before
it (`length_starts`, `totalTicks_cons`).
-/

set_option autoImplicit false
set_option relaxedAutoImplicit false

namespace ScoreRepeats

/-- One sounding of a bar: the pass is 1 the first time it sounds, 2 the second time, and so on. -/
structure PlayedBar where
  id : String
  pass : Nat
  position : Nat
  ticks : Nat
  deriving DecidableEq, Repr

/-- The bars of a piece in the order in which they sound. -/
structure PlayingOrder where
  entries : List PlayedBar
  deriving DecidableEq, Repr

namespace PlayingOrder

def length (order : PlayingOrder) : Nat := order.entries.length

/-- The entry at an index, which counts from the end if it is negative. -/
def get? (order : PlayingOrder) (index : Int) : Option PlayedBar := atSigned? order.entries index

def ids (order : PlayingOrder) : List String := order.entries.map PlayedBar.id

def pairs (order : PlayingOrder) : List (String × Nat) :=
  order.entries.map fun entry ↦ (entry.id, entry.pass)

/-- How often a bar sounds. -/
def passesOf (order : PlayingOrder) (id : String) : Nat :=
  order.entries.countP fun entry ↦ entry.id == id

/-- The start of every entry if the first starts at a given tick. -/
def startsFrom (tick : Nat) : List PlayedBar → List Nat
  | [] => []
  | entry :: rest => tick :: startsFrom (tick + entry.ticks) rest

/-- The start tick of every entry. -/
def starts (order : PlayingOrder) : List Nat := startsFrom 0 order.entries

/-- The length of the performance. -/
def totalTicks (order : PlayingOrder) : Nat :=
  order.entries.foldr (fun entry rest ↦ entry.ticks + rest) 0

/-- The order for a reader: every id with the number of its pass. -/
def text (order : PlayingOrder) : String :=
  "PlayingOrder(" ++ Text.bracketed (order.pairs.map fun (id, pass) ↦ id ++ toString pass) ++ ")"

theorem length_startsFrom (tick : Nat) (entries : List PlayedBar) :
    (startsFrom tick entries).length = entries.length := by
  induction entries generalizing tick with
  | nil => rfl
  | cons entry rest ih => simp [startsFrom, ih]

@[simp] theorem length_starts (order : PlayingOrder) : order.starts.length = order.length :=
  length_startsFrom 0 order.entries

theorem totalTicks_cons (entry : PlayedBar) (rest : List PlayedBar) :
    (PlayingOrder.mk (entry :: rest)).totalTicks = entry.ticks + (PlayingOrder.mk rest).totalTicks :=
  rfl

end PlayingOrder

end ScoreRepeats
