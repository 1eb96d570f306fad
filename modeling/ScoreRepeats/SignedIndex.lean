/-!
# Signed indices

An index into a list that counts from the start, or from the end if it is negative: the last element
is at `-1`.
-/

set_option autoImplicit false
set_option relaxedAutoImplicit false

namespace ScoreRepeats

/-- The place that an index names in a list of this length, if there is one. -/
def signedIndex? (length : Nat) (index : Int) : Option Nat :=
  let place := if index < 0 then index + length else index
  if 0 ≤ place ∧ place < length then some place.toNat else none

/-- The element that an index names. -/
def atSigned? {α : Type} (list : List α) (index : Int) : Option α :=
  (signedIndex? list.length index).bind (list[·]?)

end ScoreRepeats
