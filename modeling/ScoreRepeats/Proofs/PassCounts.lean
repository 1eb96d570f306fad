import Mathlib.Algebra.BigOperators.Group.Finset.Basic
import Mathlib.Data.List.GetD
import ScoreRepeats.Proofs.SkippedPlaces
import ScoreRepeats.Proofs.ValidResolution

/-!
# How often each bar sounds

The repeat structure tells for each bar how often it sounds at first playing (`Structure.passes`):
once in a passage played straight through, twice between repeat marks, and in a passage with
variations that often for each of them; a bar of a variation sounds once. The positions of the first
playing are counted accordingly (`count_sounding`). The replay adds at most one more pass, and none
for a bar that it skips.

Where no two bars share an id, the entries of a bar are those at its position
(`passesOf_entriesAfter`). So the passes of every bar, the length of an order and its duration
follow from the repeat structure and from the bars that sound again.
-/

set_option autoImplicit false
set_option relaxedAutoImplicit false

open scoped BigOperators

namespace ScoreRepeats

/-- How often each bar of a passage sounds at first playing. -/
def Passage.passes : Passage → Nat
  | .straight _ => 1
  | .repeated _ => 2

/-- For each bar of a region in written order how often it sounds at first playing. The bars that
variations share sound before each of them. -/
def Region.passes : Region → List Nat
  | .plain passage => passage.bars.map fun _ ↦ passage.passes
  | .varied common variations =>
    (common.bars.map fun _ ↦ variations.length * common.passes) ++
      variations.toList.flatMap fun variation ↦ variation.toList.map fun _ ↦ 1

/-- For each bar of a piece in written order how often it sounds at first playing. -/
def Structure.passes (piece : Structure) : List Nat := piece.regions.toList.flatMap Region.passes

/-- How often the bar at a position sounds at first playing. -/
def Structure.firstPasses (piece : Structure) (p : Nat) : Nat := piece.passes.getD p 0

/-! ### Numbers that belong to positions -/

/-- The number that belongs to the position `p`, if those of a list belong to the positions from
`first` on, and 0 belongs to all others. -/
def readFrom (numbers : List Nat) (first p : Nat) : Nat :=
  if first ≤ p then numbers.getD (p - first) 0 else 0

/-- At each position one of two successive lists is read, and nothing of the other. -/
theorem readFrom_append (before after : List Nat) (first p : Nat) :
    readFrom (before ++ after) first p =
      readFrom before first p + readFrom after (first + before.length) p := by
  unfold readFrom
  by_cases hfirst : first ≤ p
  · by_cases hlt : p - first < before.length
    · have hbefore : ¬ first + before.length ≤ p := by omega
      rw [if_pos hfirst, if_pos hfirst, if_neg hbefore, List.getD_append _ _ _ _ hlt, Nat.add_zero]
    · have hle : before.length ≤ p - first := Nat.le_of_not_lt hlt
      have hafter : first + before.length ≤ p := by omega
      rw [if_pos hfirst, if_pos hfirst, if_pos hafter, List.getD_append_right _ _ _ _ hle,
        List.getD_eq_default _ _ hle, Nat.zero_add, Nat.sub_add_eq]
  · have hafter : ¬ first + before.length ≤ p := by omega
    rw [if_neg hfirst, if_neg hfirst, if_neg hafter]

/-- One number for a whole range is read as often as the range has the position. -/
theorem readFrom_replicate (size number first p : Nat) :
    readFrom (List.replicate size number) first p = number * (List.range' first size).count p := by
  unfold readFrom
  by_cases hmem : p ∈ List.range' first size
  · rw [List.count_eq_one_of_mem List.nodup_range' hmem, Nat.mul_one]
    rw [List.mem_range'_1] at hmem
    rw [if_pos hmem.1, List.getD_replicate _ (by omega)]
  · rw [List.count_eq_zero_of_not_mem hmem, Nat.mul_zero]
    rw [List.mem_range'_1] at hmem
    split
    · exact List.getD_eq_default _ _ (by rw [List.length_replicate]; omega)
    · rfl

/-- Things placed one after another are counted place by place. -/
theorem count_flatMap_placedFrom {α : Type} {size : α → Nat} {span : Nat × α → List Nat}
    {numbers : α → List Nat} (hlength : ∀ item, (numbers item).length = size item)
    (hcount : ∀ item first p, (span (first, item)).count p = readFrom (numbers item) first p)
    (first : Nat) (items : List α) (p : Nat) :
    ((placedFrom size first items).flatMap span).count p =
      readFrom (items.flatMap numbers) first p := by
  induction items generalizing first with
  | nil => simp [placedFrom, readFrom]
  | cons item rest ih =>
    rw [placedFrom, List.flatMap_cons, List.count_append, hcount, ih, List.flatMap_cons,
      readFrom_append, hlength]

/-- What precedes the own part of every item is counted once for each of them. -/
theorem count_flatMap_append {α : Type} (items : List α) (shared : List Nat) (own : α → List Nat)
    (p : Nat) :
    (items.flatMap fun item ↦ shared ++ own item).count p =
      items.length * shared.count p + (items.flatMap own).count p := by
  induction items with
  | nil => simp
  | cons item rest ih =>
    simp only [List.flatMap_cons, List.count_append, List.length_cons, Nat.succ_mul, ih]
    omega

/-! ### Counting the first playing -/

/-- A passage sounds at each of its positions as often as it is played. -/
theorem Passage.count_sounding (passage : Passage) (first p : Nat) :
    (passage.sounding first).count p = passage.passes * (passage.span first).count p := by
  cases passage with
  | straight run => exact (Nat.one_mul _).symm
  | repeated run => exact List.count_append.trans (Nat.two_mul _).symm

namespace Region

/-- Every bar of a region has its number of passes. -/
theorem length_passes (region : Region) : region.passes.length = region.bars.length := by
  cases region with
  | plain passage => exact List.length_map _
  | varied common variations =>
    simp only [passes, bars, List.length_append, List.length_map, List.length_flatMap]

/-- What variations share sounds before each of them, and each of them sounds once. -/
theorem count_sounding (region : Region) (first p : Nat) :
    (region.sounding first).count p = readFrom region.passes first p := by
  cases region with
  | plain passage =>
    show (passage.sounding first).count p = _
    rw [passes, List.map_const', Passage.length_bars, readFrom_replicate]
    exact passage.count_sounding first p
  | varied common variations =>
    have hones : (variations.toList.flatMap fun variation ↦ variation.toList.map fun _ ↦ 1) =
        List.replicate (variations.toList.map NonemptyList.length).sum 1 := by
      rw [← List.map_flatMap, List.map_const', List.length_flatMap]
      simp only [NonemptyList.length_toList]
    have hplaces : (placedVariations common variations first).length = variations.length := by
      rw [placedVariations, length_placedFrom, NonemptyList.length_toList]
    have hown : (placedVariations common variations first).flatMap
        (fun place ↦ List.range' place.1 place.2.length) =
          List.range' (first + common.run.length)
            (variations.toList.map NonemptyList.length).sum := by
      rw [placedVariations, flatMap_range'_placedFrom]
    have hcommon : (common.bars.map fun _ ↦ variations.length * common.passes).length =
        common.run.length := by
      rw [List.length_map, Passage.length_bars]
    rw [passes, readFrom_append, hcommon, hones, List.map_const', Passage.length_bars,
      readFrom_replicate, readFrom_replicate, Nat.one_mul, Nat.mul_assoc]
    show ((placedVariations common variations first).flatMap fun place ↦
      common.sounding first ++ List.range' place.1 place.2.length).count p = _
    rw [count_flatMap_append, hplaces, hown, common.count_sounding]
    rfl

/-- Every bar of a region sounds at first playing. -/
theorem pos_of_mem_passes {region : Region} {times : Nat} (h : times ∈ region.passes) :
    0 < times := by
  have hpassage : ∀ passage : Passage, 0 < passage.passes := by
    rintro (run | run)
    · exact Nat.one_pos
    · exact Nat.two_pos
  cases region with
  | plain passage =>
    obtain ⟨bar, -, rfl⟩ := List.mem_map.mp h
    exact hpassage passage
  | varied common variations =>
    rcases List.mem_append.mp h with hcommon | hvariation
    · obtain ⟨bar, -, rfl⟩ := List.mem_map.mp hcommon
      exact Nat.mul_pos (Nat.succ_pos _) (hpassage common)
    · obtain ⟨variation, -, hone⟩ := List.mem_flatMap.mp hvariation
      obtain ⟨bar, -, rfl⟩ := List.mem_map.mp hone
      exact Nat.one_pos

end Region

namespace Structure

variable {piece : Structure} {rhythm : Option Rhythm} {auftakt : Bool} {index : MarkerIndex}

/-- Every bar of a piece has its number of passes. -/
theorem length_passes (piece : Structure) : piece.passes.length = piece.size := by
  simp only [passes, size, bars, List.length_flatMap, Region.length_passes]

/-- The first playing goes to each position as often as the repeat structure says. -/
theorem count_sounding (piece : Structure) (p : Nat) :
    piece.sounding.count p = piece.firstPasses p :=
  count_flatMap_placedFrom Region.length_passes Region.count_sounding 0 piece.regions.toList p

/-- Every bar of a piece sounds at first playing. -/
theorem firstPasses_pos {p : Nat} (hp : p < piece.size) : 0 < piece.firstPasses p := by
  rw [← length_passes] at hp
  have hmem : piece.passes[p] ∈ piece.passes := List.getElem_mem hp
  obtain ⟨region, -, htimes⟩ := List.mem_flatMap.mp hmem
  rw [firstPasses, List.getD_eq_getElem _ _ hp]
  exact Region.pos_of_mem_passes htimes

/-- The first playing stays within the piece. -/
theorem lt_size_of_mem_sounding {p : Nat} (hp : p ∈ piece.sounding) : p < piece.size := by
  by_contra hge
  have hcount := List.count_pos_iff.mpr hp
  have hle : piece.passes.length ≤ p := by
    rw [length_passes]
    omega
  rw [count_sounding, firstPasses, List.getD_eq_default _ _ hle] at hcount
  exact Nat.lt_irrefl 0 hcount

/-! ### Counting the replay -/

/-- A replay stays within the piece. -/
theorem IsReplay.lt_size {replayed : List Nat}
    (hreplay : piece.IsReplay rhythm auftakt index replayed) {p : Nat} (hp : p ∈ replayed) :
    p < piece.size := by
  obtain ⟨start, -, -, hmem⟩ := hreplay
  have hreached : piece.IsReplayable p := ((hmem p).mp hp).2.1
  exact hreached.lt_size

/-- No bar sounds twice in a replay. -/
theorem IsReplay.count_le_one {replayed : List Nat}
    (hreplay : piece.IsReplay rhythm auftakt index replayed) (p : Nat) : replayed.count p ≤ 1 := by
  obtain ⟨start, -, hincreasing, -⟩ := hreplay
  have hnodup : replayed.Nodup := hincreasing.imp Nat.ne_of_lt
  exact List.nodup_iff_count_le_one.mp hnodup p

/-- A skipped bar does not sound in a replay. -/
theorem IsReplay.count_eq_zero {replayed : List Nat}
    (hreplay : piece.IsReplay rhythm auftakt index replayed) {p : Nat}
    (hskipped : piece.IsSkipped p) :
    replayed.count p = 0 := by
  refine List.count_eq_zero_of_not_mem fun hp ↦ ?_
  have hlt := hreplay.lt_size hp
  obtain ⟨start, -, -, hmem⟩ := hreplay
  have hreached : piece.IsReplayable p := ((hmem p).mp hp).2.1
  exact (isReplayable_iff hlt).mp hreached hskipped

/-- Without a jump there is no replay. -/
theorem IsReplay.eq_nil {replayed : List Nat}
    (hreplay : piece.IsReplay rhythm auftakt index replayed) (hbare : piece.kind = .bare) :
    replayed = [] := by
  obtain ⟨start, -, -, hmem⟩ := hreplay
  exact List.eq_nil_iff_forall_not_mem.mpr fun p hp ↦ ((hmem p).mp hp).1 hbare

/-! ### Counting the entries of an order -/

/-- Where no two bars share an id, a bar has an entry for each time that its position occurs. -/
theorem passesOf_entriesAfter (distinct : piece.ids.Nodup) {positions : List Nat}
    (hwithin : ∀ q ∈ positions, q < piece.size) {p : Nat} {bar : Bar}
    (hbar : piece.bars[p]? = some bar) (earlier : List Nat) :
    (PlayingOrder.mk (piece.entriesAfter earlier positions)).passesOf bar.id =
      positions.count p := by
  refine countP_id_entriesAfter (fun q hq ↦ ?_) earlier
  have hother := List.getElem?_eq_getElem (hwithin q hq : q < piece.bars.length)
  rw [barAt_eq hother]
  constructor
  · exact index_eq_of_key_eq distinct hother hbar
  · rintro rfl
    rw [hbar, Option.some.injEq] at hother
    rw [hother]

/-- A sum over positions counts the value of each position as often as the position occurs. -/
theorem sum_map_eq_sum_count {size : Nat} {positions : List Nat}
    (hwithin : ∀ p ∈ positions, p < size) (value : Nat → Nat) :
    (positions.map value).sum = ∑ p ∈ Finset.range size, positions.count p * value p := by
  rw [Finset.sum_list_map_count]
  refine Finset.sum_subset (fun p hp ↦ ?_) fun p _ hp ↦ ?_
  · exact Finset.mem_range.mpr (hwithin p (List.mem_toFinset.mp hp))
  · rw [List.count_eq_zero_of_not_mem fun hmem ↦ hp (List.mem_toFinset.mpr hmem), zero_nsmul]

/-- The length of an order counts the occurrences of all positions. -/
theorem length_entriesAfter {positions : List Nat} (hwithin : ∀ p ∈ positions, p < piece.size)
    (earlier : List Nat) :
    (PlayingOrder.mk (piece.entriesAfter earlier positions)).length =
      ∑ p ∈ Finset.range piece.size, positions.count p := by
  have hlength : (piece.entriesAfter earlier positions).length = positions.length := by
    rw [← map_position_entriesAfter earlier positions, List.length_map, map_position_entriesAfter]
  have hsum := sum_map_eq_sum_count hwithin fun _ ↦ 1
  rw [List.map_const', List.sum_replicate_nat, Nat.mul_one] at hsum
  simp only [Nat.mul_one] at hsum
  exact hlength.trans hsum

/-- An order lasts as long as its bars, each taken as often as its position occurs. -/
theorem totalTicks_entriesAfter {positions : List Nat}
    (hwithin : ∀ p ∈ positions, p < piece.size) (earlier : List Nat) :
    (PlayingOrder.mk (piece.entriesAfter earlier positions)).totalTicks =
      ∑ p ∈ Finset.range piece.size, positions.count p * (piece.barAt p).ticks := by
  have hticks : (piece.entriesAfter earlier positions).map PlayedBar.ticks =
      positions.map fun p ↦ (piece.barAt p).ticks :=
    map_entriesAfter _ _ (fun _ _ ↦ rfl) earlier positions
  calc (PlayingOrder.mk (piece.entriesAfter earlier positions)).totalTicks
      = ((piece.entriesAfter earlier positions).map PlayedBar.ticks).sum := by
        rw [List.sum, List.foldr_map]
        rfl
    _ = ∑ p ∈ Finset.range piece.size, positions.count p * (piece.barAt p).ticks := by
        rw [hticks]
        exact sum_map_eq_sum_count hwithin _

/-- In the order of a valid piece every bar sounds, as often as the repeat structure says for the
first playing, and at most once more in the replay: not without a jump, and not if the replay skips
it. The length of the order and its duration are summed over the bars accordingly. -/
theorem passesOf_eq_firstPasses_add_count (hvalid : piece.validate rhythm auftakt = .ok index) :
    ∃ order replayed, piece.resolveWith rhythm auftakt index = .ok order ∧
      piece.IsReplay rhythm auftakt index replayed ∧
      (∀ p, replayed.count p ≤ 1) ∧ (piece.kind = .bare → replayed = []) ∧
      (∀ p, piece.IsSkipped p → replayed.count p = 0) ∧
      (∀ p bar, piece.bars[p]? = some bar →
        order.passesOf bar.id = piece.firstPasses p + replayed.count p ∧
          0 < order.passesOf bar.id) ∧
      order.length = ∑ p ∈ Finset.range piece.size, (piece.firstPasses p + replayed.count p) ∧
      order.totalTicks = ∑ p ∈ Finset.range piece.size,
        (piece.firstPasses p + replayed.count p) * (piece.barAt p).ticks := by
  obtain ⟨hkeeps, -, replayed, hreplay, hresolve⟩ := exists_order_of_validate hvalid
  have hwithin : ∀ p ∈ piece.sounding ++ replayed, p < piece.size := by
    intro p hp
    rcases List.mem_append.mp hp with hfirst | hagain
    · exact lt_size_of_mem_sounding hfirst
    · exact hreplay.lt_size hagain
  have hcount : ∀ p, (piece.sounding ++ replayed).count p =
      piece.firstPasses p + replayed.count p := by
    intro p
    rw [List.count_append, count_sounding]
  refine ⟨_, replayed, hresolve, hreplay, hreplay.count_le_one, hreplay.eq_nil,
    fun p ↦ hreplay.count_eq_zero, fun p bar hbar ↦ ?_, ?_, ?_⟩
  · have hlt : p < piece.size := (List.getElem?_eq_some_iff.mp hbar).1
    rw [passesOf_entriesAfter hkeeps.ids hwithin hbar, hcount]
    exact ⟨rfl, Nat.add_pos_left (firstPasses_pos hlt) _⟩
  · simp only [length_entriesAfter hwithin, hcount]
  · simp only [totalTicks_entriesAfter hwithin, hcount]

/-- In the piece al Coda the replay skips the first ending, which so sounds once. -/
theorem passesOf_pieceAlCoda :
    pieceAlCoda.validate none false = .ok indexAlCoda ∧ pieceAlCoda.IsSkipped 2 ∧
      ∃ order replayed, pieceAlCoda.resolveWith none false indexAlCoda = .ok order ∧
        pieceAlCoda.IsReplay none false indexAlCoda replayed ∧ order.passesOf "C" = 1 ∧
        order.length = ∑ p ∈ Finset.range 8, (pieceAlCoda.firstPasses p + replayed.count p) := by
  have hvalid := validate_pieceAlCoda
  have hskipped : pieceAlCoda.IsSkipped 2 := by decide
  have hbar : pieceAlCoda.bars[2]? = some (unmarkedBar "C") := rfl
  obtain ⟨order, replayed, hresolve, hreplay, -, -, hskips, hpasses, hlength, -⟩ :=
    passesOf_eq_firstPasses_add_count hvalid
  have hcount := (hpasses 2 _ hbar).1
  rw [hskips 2 hskipped] at hcount
  exact ⟨hvalid, hskipped, order, replayed, hresolve, hreplay, hcount, hlength⟩

/-- The repeated bar and the bar with two endings sound twice before the jump. -/
example : pieceAlCoda.passes = [2, 2, 1, 1, 1, 1, 1, 1] := by decide

end Structure

end ScoreRepeats
