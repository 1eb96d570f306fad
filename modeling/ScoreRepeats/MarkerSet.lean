import ScoreRepeats.Marker

/-!
# Sets of markers

The markers on one bar: one flag for each. A set is known by its members (`MarkerSet.ext`), and
`has_insert` and `has_ofList` give the members of the sets that are built here.
-/

set_option autoImplicit false
set_option relaxedAutoImplicit false

namespace ScoreRepeats

/-- A set of markers. -/
structure MarkerSet where
  codaFirst : Bool
  codaSecond : Bool
  daCapo : Bool
  dalSegno : Bool
  fine : Bool
  repeatEnd : Bool
  repeatStart : Bool
  segno : Bool
  deriving DecidableEq, Repr

namespace MarkerSet

def empty : MarkerSet := ⟨false, false, false, false, false, false, false, false⟩

def has (markers : MarkerSet) : Marker → Bool
  | .codaFirst => markers.codaFirst
  | .codaSecond => markers.codaSecond
  | .daCapo => markers.daCapo
  | .dalSegno => markers.dalSegno
  | .fine => markers.fine
  | .repeatEnd => markers.repeatEnd
  | .repeatStart => markers.repeatStart
  | .segno => markers.segno

def insert (markers : MarkerSet) : Marker → MarkerSet
  | .codaFirst => { markers with codaFirst := true }
  | .codaSecond => { markers with codaSecond := true }
  | .daCapo => { markers with daCapo := true }
  | .dalSegno => { markers with dalSegno := true }
  | .fine => { markers with fine := true }
  | .repeatEnd => { markers with repeatEnd := true }
  | .repeatStart => { markers with repeatStart := true }
  | .segno => { markers with segno := true }

def ofList (list : List Marker) : MarkerSet := list.foldl insert empty

/-- The members in the order of their names. -/
def toList (markers : MarkerSet) : List Marker := Marker.all.filter markers.has

/-- Whether a jump instruction is among the markers. -/
def hasJump (markers : MarkerSet) : Bool := markers.toList.any Marker.isJump

/-- The first member that excludes others, and these others. A set has no order of its own, so the
members are asked in the order of their names. -/
def clash? (markers : MarkerSet) : Option (Marker × List Marker) :=
  markers.toList.findSome? fun marker ↦
    match markers.toList.filter marker.excludes with
    | [] => none
    | others => some (marker, others)

/-- No two members exclude each other. -/
def isCompatible (markers : MarkerSet) : Bool := markers.clash?.isNone

/-- The members that a bar of a variation cannot carry. -/
def barredFromVariations (markers : MarkerSet) : List Marker :=
  markers.toList.filter Marker.barredFromVariations

theorem ext {first second : MarkerSet} (h : ∀ marker, first.has marker = second.has marker) :
    first = second := by
  cases first
  cases second
  rw [MarkerSet.mk.injEq]
  exact ⟨h .codaFirst, h .codaSecond, h .daCapo, h .dalSegno, h .fine, h .repeatEnd,
    h .repeatStart, h .segno⟩

@[simp] theorem has_empty (marker : Marker) : empty.has marker = false := by
  cases marker <;> rfl

@[simp] theorem has_insert (markers : MarkerSet) (added marker : Marker) :
    (markers.insert added).has marker = (decide (marker = added) || markers.has marker) := by
  cases added <;> cases marker <;> rfl

theorem has_foldl_insert (list : List Marker) (markers : MarkerSet) (marker : Marker) :
    (list.foldl insert markers).has marker = (list.contains marker || markers.has marker) := by
  induction list generalizing markers with
  | nil => simp
  | cons first rest ih => simp [ih, Bool.or_left_comm, Bool.or_assoc]

@[simp] theorem has_ofList (list : List Marker) (marker : Marker) :
    (ofList list).has marker = list.contains marker := by
  simp [ofList, has_foldl_insert]

@[simp] theorem mem_toList (markers : MarkerSet) (marker : Marker) :
    marker ∈ markers.toList ↔ markers.has marker = true := by
  simp [toList, Marker.mem_all]

theorem isCompatible_iff {markers : MarkerSet} : markers.isCompatible = true ↔
    ∀ marker other, markers.has marker = true → markers.has other = true →
      marker.excludes other = false := by
  have hmember (marker : Marker) : (match markers.toList.filter marker.excludes with
      | [] => none
      | others => some (marker, others)) = none ↔
        ∀ other, markers.has other = true → marker.excludes other = false := by
    rw [← Option.isNone_iff_eq_none]
    split
    next hnil => simpa [List.filter_eq_nil_iff] using hnil
    next hne => simpa [List.filter_eq_nil_iff] using hne
  rw [isCompatible, Option.isNone_iff_eq_none, clash?, List.findSome?_eq_none_iff]
  simp only [hmember, mem_toList]
  exact ⟨fun h marker other hmarker ↦ h marker hmarker other,
    fun h marker hmarker other ↦ h marker other hmarker⟩

end MarkerSet

end ScoreRepeats
