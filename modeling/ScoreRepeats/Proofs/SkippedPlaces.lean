import Mathlib.Data.List.Nodup
import Mathlib.Data.List.Pairwise
import ScoreRepeats.Proofs.RegionPlaces

/-!
# Positions that a replay skips

Each position of a piece lies in exactly one of its regions (`Structure.exists_place_of_lt`,
`Structure.place_unique`), since the regions take up the positions one after another
(`Structure.flatMap_range'_placed`). Within a region with variations a position belongs to the
common passage, to the last variation, or to one before the last. Those of the third sort are
skipped (`Structure.IsSkipped`), and a replay can reach all the others
(`Structure.isReplayable_iff`).
-/

set_option autoImplicit false
set_option relaxedAutoImplicit false

namespace ScoreRepeats

/-- Things placed one after another take up all positions from the first on. -/
theorem flatMap_range'_placedFrom {α : Type} (size : α → Nat) (first : Nat) (items : List α) :
    (placedFrom size first items).flatMap (fun place ↦ List.range' place.1 (size place.2)) =
      List.range' first (items.map size).sum := by
  induction items generalizing first with
  | nil => rfl
  | cons item rest ih =>
    rw [placedFrom, List.flatMap_cons, ih, List.map_cons, List.sum_cons]
    exact List.range'_append_1

namespace Region

/-- The positions of a region that a replay skips: those of all variations but the last. -/
def skippedSpan (region : Region) (first : Nat) : List Nat :=
  match region with
  | .plain _ => []
  | .varied common variations =>
    (placedFrom NonemptyList.length (first + common.run.length) variations.init).flatMap
      fun (next, variation) ↦ List.range' next variation.length

/-- The variations take up as many positions as they have bars: those before the last, and then the
last. -/
theorem sum_length_variations (variations : NonemptyList BarRun) :
    (variations.toList.map NonemptyList.length).sum =
      (variations.init.map NonemptyList.length).sum + variations.last.length := by
  rw [← variations.init_append_last, List.map_append, List.sum_append, List.map_singleton,
    List.sum_singleton]

/-- A region takes up the positions of what its variations share and of the variations. -/
theorem length_bars_varied (common : Passage) (variations : NonemptyList BarRun) :
    (Region.varied common variations).bars.length =
      common.run.length + (variations.toList.map NonemptyList.length).sum := by
  have hvariations : (variations.toList.flatMap NonemptyList.toList).length =
      (variations.toList.map NonemptyList.length).sum := by
    simp only [List.length_flatMap, NonemptyList.length_toList]
  rw [bars, List.length_append, Passage.length_bars, hvariations]

/-- A replay reaches the positions of a region that it does not skip. -/
theorem mem_replaySpan_iff {region : Region} {first p : Nat}
    (hwithin : first ≤ p ∧ p < first + region.bars.length) :
    p ∈ region.replaySpan first ↔ p ∉ region.skippedSpan first := by
  cases region with
  | plain passage =>
    have hlength : (Region.plain passage).bars.length = passage.run.length := passage.length_bars
    simpa [replaySpan, skippedSpan, Passage.span, hlength] using hwithin
  | varied common variations =>
    have hsum := sum_length_variations variations
    have hlength := length_bars_varied common variations
    simp only [replaySpan, skippedSpan, Passage.span]
    rw [flatMap_range'_placedFrom]
    simp only [List.mem_append, List.mem_range'_1]
    omega

/-- What a replay skips of a region stays within the region. -/
theorem mem_skippedSpan_within {region : Region} {first p : Nat} (h : p ∈ region.skippedSpan first) :
    first ≤ p ∧ p < first + region.bars.length := by
  cases region with
  | plain passage => cases h
  | varied common variations =>
    have hsum := sum_length_variations variations
    have hlength := length_bars_varied common variations
    simp only [skippedSpan] at h
    rw [flatMap_range'_placedFrom, List.mem_range'_1] at h
    omega

end Region

namespace Structure

/-- A position of a variation other than the last of its region. -/
def IsSkipped (piece : Structure) (p : Nat) : Prop :=
  ∃ place ∈ piece.placed, p ∈ place.2.skippedSpan place.1

instance (piece : Structure) (p : Nat) : Decidable (piece.IsSkipped p) :=
  inferInstanceAs (Decidable (∃ place ∈ piece.placed, p ∈ place.2.skippedSpan place.1))

variable {piece : Structure} {p : Nat}

/-- The regions of a piece take up its positions one after another. -/
theorem flatMap_range'_placed (piece : Structure) :
    piece.placed.flatMap (fun place ↦ List.range' place.1 place.2.bars.length) =
      List.range' 0 piece.size := by
  have hsize : piece.size = (piece.regions.toList.map fun region ↦ region.bars.length).sum := by
    rw [size, bars, List.length_flatMap]
  rw [hsize]
  exact flatMap_range'_placedFrom (fun region ↦ region.bars.length) 0 piece.regions.toList

/-- Every position of a piece lies in one of its regions. -/
theorem exists_place_of_lt (hp : p < piece.size) :
    ∃ place ∈ piece.placed, place.1 ≤ p ∧ p < place.1 + place.2.bars.length := by
  have hmem : p ∈ List.range' 0 piece.size := by
    rw [List.mem_range'_1]
    omega
  rw [← flatMap_range'_placed, List.mem_flatMap] at hmem
  obtain ⟨place, hplace, hin⟩ := hmem
  exact ⟨place, hplace, List.mem_range'_1.mp hin⟩

/-- No position lies in two regions. -/
theorem place_unique {place other : Nat × Region} (hplace : place ∈ piece.placed)
    (hother : other ∈ piece.placed) (hin : place.1 ≤ p ∧ p < place.1 + place.2.bars.length)
    (hinOther : other.1 ≤ p ∧ p < other.1 + other.2.bars.length) : place = other := by
  have hnodup : (piece.placed.flatMap fun place ↦
      List.range' place.1 place.2.bars.length).Nodup := by
    rw [flatMap_range'_placed]
    exact List.nodup_range'
  have hdisjoint := (List.nodup_flatMap.mp hnodup).2
  have hsymm : Std.Symm (Function.onFun List.Disjoint fun place : Nat × Region ↦
      List.range' place.1 place.2.bars.length) := ⟨fun _ _ h p hfirst hsecond ↦ h hsecond hfirst⟩
  by_contra hne
  have hapart := hdisjoint.forall hplace hother hne
  exact hapart (List.mem_range'_1.mpr hin) (List.mem_range'_1.mpr hinOther)

/-- A replayable position is one of the piece. -/
theorem IsReplayable.lt_size (h : piece.IsReplayable p) : p < piece.size := by
  obtain ⟨place, hplace, hp⟩ := h
  have hin : p ∈ List.range' place.1 place.2.bars.length :=
    List.mem_range'_1.mpr (mem_replaySpan_within place hp)
  have hmem : p ∈ List.range' 0 piece.size := by
    rw [← flatMap_range'_placed]
    exact List.mem_flatMap.mpr ⟨place, hplace, hin⟩
  rw [List.mem_range'_1] at hmem
  omega

/-- A replay can reach all positions of a piece but the skipped ones. -/
theorem isReplayable_iff (hp : p < piece.size) : piece.IsReplayable p ↔ ¬ piece.IsSkipped p := by
  obtain ⟨place, hplace, hin⟩ := exists_place_of_lt hp
  have hiff := Region.mem_replaySpan_iff hin
  constructor
  · rintro ⟨other, hother, hreached⟩ ⟨third, hthird, hskipped⟩
    have hsame := place_unique hother hthird (mem_replaySpan_within other hreached)
      (Region.mem_skippedSpan_within hskipped)
    rw [← hsame] at hskipped
    exact (Region.mem_replaySpan_iff (mem_replaySpan_within other hreached)).mp hreached hskipped
  · intro hkept
    refine ⟨place, hplace, hiff.mpr fun hskipped ↦ ?_⟩
    exact hkept ⟨place, hplace, hskipped⟩

end Structure

end ScoreRepeats
