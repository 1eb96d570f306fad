import ScoreRepeats.Bar

/-!
# Plain bars

Full bars of common time, without marks or with a single one. The results on whole pieces are shown
on scores of such bars. Two more bars have a number that is too long to be written, one for its
variation and one for its length.
-/

set_option autoImplicit false
set_option relaxedAutoImplicit false

namespace ScoreRepeats.Structure

/-- A full bar of common time without marks. -/
def unmarkedBar (id : String) : Bar :=
  ⟨id, 960, .empty, none, by decide, by decide, Bar.none_ne_some_zero, fun _ ↦ rfl⟩

/-- A full bar of common time with one mark. -/
def markedBar (id : String) (marker : Marker) : Bar :=
  ⟨id, 960, .ofList [marker], none, by decide, by cases marker <;> decide, Bar.none_ne_some_zero,
    (absurd rfl ·)⟩

/-- A full bar of common time that ends a repeat. -/
def endingBar (id : String) : Bar := markedBar id .repeatEnd

/-- A full bar of common time in a variation. -/
def variationBar (id : String) (number : Nat) (positive : some number ≠ some 0) : Bar :=
  ⟨id, 960, .empty, some number, by decide, by decide, positive, fun _ ↦ rfl⟩

theorem some_one_ne_some_zero : some 1 ≠ some 0 := by decide

theorem some_two_ne_some_zero : some 2 ≠ some 0 := by decide

/-- A full bar of common time with one mark, in a variation. -/
def markedVariationBar (id : String) (number : Nat) (marker : Marker)
    (positive : some number ≠ some 0)
    (allowed : (MarkerSet.ofList [marker]).barredFromVariations = []) : Bar :=
  { markedBar id marker with
    variation := some number
    variation_ne_zero := positive
    not_barred := fun _ ↦ allowed }

/-- A full bar of common time that ends a repeat with its first variation. -/
def firstEndingBar (id : String) : Bar :=
  markedVariationBar id 1 .repeatEnd some_one_ne_some_zero (by decide)

/-- A full bar of common time in a second variation, with the Fine. -/
def secondEndingWithFine (id : String) : Bar :=
  markedVariationBar id 2 .fine some_two_ne_some_zero (by decide)

/-! ### Long numbers -/

/-- The least number that is too long to be written. -/
@[irreducible] def longNumber : Nat := Nat.pow 10 Numeral.maxDigits

/-- A long number is longer than a full bar of common time. -/
theorem lt_longNumber : 960 < longNumber := by
  have hdigits : 3 ≤ Numeral.maxDigits := by decide
  unfold longNumber
  generalize Numeral.maxDigits = digits at hdigits ⊢
  exact Nat.lt_of_lt_of_le (by decide) (Nat.pow_le_pow_right (Nat.succ_pos 9) hdigits)

theorem longNumber_pos : 0 < longNumber := Nat.zero_lt_of_lt lt_longNumber

theorem isWritable_longNumber : Numeral.isWritable longNumber = false := by
  unfold Numeral.isWritable longNumber
  generalize Numeral.maxDigits = digits
  simp

/-- A bar of a variation with a long number. -/
def barOfLongNumber (id : String) : Bar :=
  variationBar id longNumber fun h ↦ Nat.ne_of_gt longNumber_pos (Option.some.inj h)

/-- A bar with a jump back to the start, and with a long number for its length. -/
def barOfLongLength (id : String) : Bar :=
  { markedBar id .daCapo with
    ticks := longNumber
    ticks_pos := longNumber_pos }

end ScoreRepeats.Structure
