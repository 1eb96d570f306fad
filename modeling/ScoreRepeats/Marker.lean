/-!
# Markers

The marks that may stand on a bar: the two repeat marks, the places of navigation (Segno, Fine and
the two Codas) and the two jump instructions (Da Capo and Dal Segno). Some pairs of them cannot
share a bar.
-/

set_option autoImplicit false
set_option relaxedAutoImplicit false

namespace ScoreRepeats

/-- A mark on a bar. The constructors stand in the order of their names. -/
inductive Marker
  | codaFirst | codaSecond | daCapo | dalSegno | fine | repeatEnd | repeatStart | segno
  deriving DecidableEq, Repr

namespace Marker

/-- All markers, in the order of their names. -/
def all : List Marker :=
  [.codaFirst, .codaSecond, .daCapo, .dalSegno, .fine, .repeatEnd, .repeatStart, .segno]

theorem mem_all (marker : Marker) : marker ∈ all := by cases marker <;> simp [all]

def name : Marker → String
  | .codaFirst => "coda_first"
  | .codaSecond => "coda_second"
  | .daCapo => "da_capo"
  | .dalSegno => "dal_segno"
  | .fine => "fine"
  | .repeatEnd => "repeat_end"
  | .repeatStart => "repeat_start"
  | .segno => "segno"

def ofName? (text : String) : Option Marker := all.find? fun marker ↦ marker.name == text

/-- The mark as it is printed in a score. -/
def symbol : Marker → String
  | .codaFirst => "Coda"
  | .codaSecond => "Coda"
  | .daCapo => "D.C."
  | .dalSegno => "D.S."
  | .fine => "Fine"
  | .repeatEnd => ":|"
  | .repeatStart => "|:"
  | .segno => "Segno"

/-- The instructions that send the player back. -/
def isJump : Marker → Bool
  | .daCapo | .dalSegno => true
  | _ => false

/-- Two markers that cannot share a bar. -/
def excludes : Marker → Marker → Bool
  | .repeatStart, other => other.isJump
  | other, .repeatStart => other.isJump
  | .daCapo, .dalSegno | .dalSegno, .daCapo => true
  | .segno, .daCapo | .daCapo, .segno => true
  | .codaFirst, .codaSecond | .codaSecond, .codaFirst => true
  | _, _ => false

/-- Markers that a bar of a variation cannot carry. -/
def barredFromVariations : Marker → Bool
  | .repeatStart => true
  | marker => marker.isJump

theorem name_injective {first second : Marker} (h : first.name = second.name) : first = second := by
  cases first <;> cases second <;> first | rfl | simp [name] at h

@[simp] theorem ofName?_name (marker : Marker) : ofName? marker.name = some marker := by
  cases marker <;> rfl

theorem ofName?_eq_some_iff {text : String} {marker : Marker} :
    ofName? text = some marker ↔ text = marker.name := by
  constructor
  · intro h
    have found := List.find?_some h
    exact (eq_of_beq found).symm
  · rintro rfl
    exact ofName?_name marker

end Marker

end ScoreRepeats
