import Mathlib.Algebra.GroupWithZero.Nat
import Mathlib.Data.List.Range
import ScoreRepeats.Resolution

/-!
# Places of regions

The bars of a piece are numbered through all its regions, so the bars of a region stand at
consecutive positions, from the number of bars before it on (`Structure.getElem?_placed`).
`placedFrom` puts things of known sizes one after another and `Structure.placed` does so with the
regions of a piece.

From its first position alone follow the positions that a region sounds at first playing
(`Region.sounding`) and in a replay (`Region.replaySpan`). The readings of a region look every bar up
by its id. Where no two bars share an id, the look-up gives the place of the bar
(`play_eq_range'`), and the two readings of a piece are those of its places (`forward_eq_sounding`,
`replay_eq_replaySpan`). The replay takes the positions in increasing order (`replay_pairwise`).
-/

set_option autoImplicit false
set_option relaxedAutoImplicit false

namespace ScoreRepeats

/-- Of two lists written one after the other, the second stands where the first ends. -/
theorem isPrefix_drop_of_append {β : Type} {written before after : List β} {first : Nat}
    (h : before ++ after <+: written.drop first) :
    before <+: written.drop first ∧ after <+: written.drop (first + before.length) := by
  obtain ⟨rest, hrest⟩ := h
  rw [List.append_assoc] at hrest
  refine ⟨⟨_, hrest⟩, rest, ?_⟩
  rw [← List.drop_drop, ← hrest, List.drop_left]

/-- Where no two things of a list share a key, a key tells the index. -/
theorem index_eq_of_key_eq {α β : Type} {items : List α} {key : α → β} {i j : Nat} {item other : α}
    (hnodup : (items.map key).Nodup) (hitem : items[i]? = some item) (hother : items[j]? = some other)
    (hkey : key item = key other) : i = j := by
  have hi : (items.map key)[i]? = some (key item) := by rw [List.getElem?_map, hitem, Option.map_some]
  have hj : (items.map key)[j]? = some (key other) := by
    rw [List.getElem?_map, hother, Option.map_some]
  have hlt : i < (items.map key).length := (List.getElem?_eq_some_iff.mp hi).1
  exact (List.getElem?_inj hlt hnodup).mp (by rw [hi, hj, hkey])

/-! ### Things placed one after another -/

section Placed

variable {α : Type} (size : α → Nat)

/-- The things of a list with their first positions, if the first of them stands at `first` and each
takes the positions after the one before. -/
def placedFrom (first : Nat) : List α → List (Nat × α)
  | [] => []
  | item :: rest => (first, item) :: placedFrom (first + size item) rest

/-- The place of a thing is the total size of the things before it. -/
theorem getElem?_placedFrom (first : Nat) (items : List α) (index : Nat) :
    (placedFrom size first items)[index]? =
      items[index]?.map fun item ↦ (first + ((items.take index).map size).sum, item) := by
  induction items generalizing first index with
  | nil => rfl
  | cons item rest ih =>
    cases index with
    | zero => rfl
    | succ index =>
      simp only [placedFrom, List.getElem?_cons_succ, ih, List.take_succ_cons, List.map_cons,
        List.sum_cons, Nat.add_assoc]

/-- Placing forgets nothing. -/
@[simp] theorem map_snd_placedFrom (first : Nat) (items : List α) :
    (placedFrom size first items).map Prod.snd = items := by
  induction items generalizing first with
  | nil => rfl
  | cons item rest ih => rw [placedFrom, List.map_cons, ih]

@[simp] theorem length_placedFrom (first : Nat) (items : List α) :
    (placedFrom size first items).length = items.length := by
  rw [← List.length_map Prod.snd, map_snd_placedFrom]

/-- What does not depend on places can be read off the placed things. -/
theorem flatMap_placedFrom {β : Type} (first : Nat) (items : List α) (read : α → List β) :
    (placedFrom size first items).flatMap (fun place ↦ read place.2) = items.flatMap read := by
  conv_rhs => rw [← map_snd_placedFrom size first items, List.flatMap_map]

/-- Where things are written out one after another, each of them stands at its place. -/
theorem isPrefix_drop_of_mem_placedFrom {β : Type} {written : List β} {items : List α}
    {write : α → List β} {first : Nat} (h : items.flatMap write <+: written.drop first)
    {place : Nat × α} (hplace : place ∈ placedFrom (fun item ↦ (write item).length) first items) :
    write place.2 <+: written.drop place.1 := by
  induction items generalizing first with
  | nil => simp [placedFrom] at hplace
  | cons item rest ih =>
    obtain ⟨hitem, hrest⟩ := isPrefix_drop_of_append h
    rcases List.mem_cons.mp hplace with rfl | hplace
    · exact hitem
    · exact ih hrest hplace

/-- Spans that increase and stay within the places of their things increase together. -/
theorem pairwise_flatMap_placedFrom {span : Nat × α → List Nat}
    (hwithin : ∀ place, ∀ p ∈ span place, place.1 ≤ p ∧ p < place.1 + size place.2)
    (hincreasing : ∀ place, (span place).Pairwise (· < ·)) (first : Nat) (items : List α) :
    ((placedFrom size first items).flatMap span).Pairwise (· < ·) ∧
      ∀ p ∈ (placedFrom size first items).flatMap span, first ≤ p := by
  induction items generalizing first with
  | nil => simp [placedFrom]
  | cons item rest ih =>
    obtain ⟨hpairwise, hbound⟩ := ih (first + size item)
    rw [placedFrom, List.flatMap_cons]
    constructor
    · refine List.pairwise_append.mpr ⟨hincreasing _, hpairwise, ?_⟩
      intro p hp q hq
      have hend := (hwithin _ p hp).2
      have hstart := hbound q hq
      exact Nat.lt_of_lt_of_le hend hstart
    · intro p hp
      rcases List.mem_append.mp hp with hp | hp
      · exact (hwithin _ p hp).1
      · exact Nat.le_of_add_right_le (hbound p hp)

end Placed

/-! ### The positions of a region -/

/-- The positions of a passage whose first bar stands at `first`. -/
def Passage.span (passage : Passage) (first : Nat) : List Nat :=
  List.range' first passage.run.length

/-- The positions of a passage at first playing: once, or twice in a row between repeat marks. -/
def Passage.sounding (passage : Passage) (first : Nat) : List Nat :=
  match passage with
  | .straight _ => passage.span first
  | .repeated _ => passage.span first ++ passage.span first

namespace Region

/-- The variations of a region with their first positions, after the common passage. -/
def placedVariations (common : Passage) (variations : NonemptyList BarRun) (first : Nat) :
    List (Nat × BarRun) :=
  placedFrom NonemptyList.length (first + common.run.length) variations.toList

/-- The positions of a region at first playing: for each variation in turn the common passage, then
the variation. -/
def sounding (region : Region) (first : Nat) : List Nat :=
  match region with
  | .plain passage => passage.sounding first
  | .varied common variations =>
    (placedVariations common variations first).flatMap fun (next, variation) ↦
      common.sounding first ++ List.range' next variation.length

/-- The positions of a region that a replay can reach: those of a passage, or those of the common
passage and of the last variation. -/
def replaySpan (region : Region) (first : Nat) : List Nat :=
  match region with
  | .plain passage => passage.span first
  | .varied common variations =>
    common.span first ++
      List.range' (first + common.run.length + (variations.init.map NonemptyList.length).sum)
        variations.last.length

end Region

namespace Structure

/-- The regions of a piece with the number of bars before each of them. -/
def placed (piece : Structure) : List (Nat × Region) :=
  placedFrom (fun region ↦ region.bars.length) 0 piece.regions.toList

/-- The positions of the first playing, region by region. -/
def sounding (piece : Structure) : List Nat :=
  piece.placed.flatMap fun (first, region) ↦ region.sounding first

/-- A position of a passage that stands by itself, of a common passage, or of the last variation
after one. -/
def IsReplayable (piece : Structure) (p : Nat) : Prop :=
  ∃ place ∈ piece.placed, p ∈ place.2.replaySpan place.1

/-! ### Bars found by their ids -/

variable {piece : Structure}

/-- Where no two bars share an id, a run of bars is found where it stands. -/
theorem play_eq_range' (distinct : piece.ids.Nodup) {run : BarRun} {first : Nat}
    (h : run.toList <+: piece.bars.drop first) :
    run.play piece.locate = List.range' first run.length := by
  apply List.ext_getElem
  · simp [BarRun.play]
  · intro i hi _
    have hrun : i < run.toList.length := by simpa [BarRun.play] using hi
    obtain ⟨after, hafter⟩ := h
    have hbar : piece.bars[first + i]? = some run.toList[i] := by
      rw [← List.getElem?_drop, ← hafter, List.getElem?_append_left hrun,
        List.getElem?_eq_getElem hrun]
    obtain ⟨hlt, hbar⟩ := List.getElem?_eq_some_iff.mp hbar
    have hids : first + i < piece.ids.length := by simpa [ids] using hlt
    have hid : run.toList[i].id = piece.ids[first + i] := by simp [ids, hbar]
    simp only [BarRun.play, List.getElem_map, List.getElem_range', Nat.one_mul, locate, hid]
    exact distinct.idxOf_getElem _ _

/-- The first playing of a passage, from its place. -/
theorem passage_forward_eq_sounding (distinct : piece.ids.Nodup) {passage : Passage} {first : Nat}
    (h : passage.bars <+: piece.bars.drop first) :
    passage.forward piece.locate = passage.sounding first := by
  cases passage with
  | straight run => exact play_eq_range' distinct h
  | repeated run =>
    have hrun : run.play piece.locate = List.range' first run.length := play_eq_range' distinct h
    rw [Passage.forward, hrun]
    rfl

/-- The first playing of a region, from its place. -/
theorem region_forward_eq_sounding (distinct : piece.ids.Nodup) {region : Region} {first : Nat}
    (h : region.bars <+: piece.bars.drop first) :
    region.forward piece.locate = region.sounding first := by
  cases region with
  | plain passage => exact passage_forward_eq_sounding distinct h
  | varied common variations =>
    obtain ⟨hcommon, hvariations⟩ := isPrefix_drop_of_append h
    rw [Passage.length_bars] at hvariations
    simp only [Region.forward, Region.sounding, Region.placedVariations]
    rw [← flatMap_placedFrom NonemptyList.length (first + common.run.length)]
    refine List.flatMap_congr fun place hplace ↦ ?_
    have hstands : place.2.toList <+: piece.bars.drop place.1 :=
      isPrefix_drop_of_mem_placedFrom hvariations
        (by simpa only [NonemptyList.length_toList] using hplace)
    rw [passage_forward_eq_sounding distinct hcommon, play_eq_range' distinct hstands]

/-- The replay of a region, from its place. -/
theorem region_replay_eq_replaySpan (distinct : piece.ids.Nodup) {region : Region} {first : Nat}
    (h : region.bars <+: piece.bars.drop first) :
    region.replay piece.locate = region.replaySpan first := by
  cases region with
  | plain passage => exact play_eq_range' distinct h
  | varied common variations =>
    obtain ⟨hcommon, hvariations⟩ := isPrefix_drop_of_append h
    have hearlier : (variations.init.flatMap NonemptyList.toList).length =
        (variations.init.map NonemptyList.length).sum := by
      simp only [List.length_flatMap, NonemptyList.length_toList]
    rw [← variations.init_append_last, List.flatMap_append, Passage.length_bars] at hvariations
    have hlast := (isPrefix_drop_of_append hvariations).2
    rw [hearlier, List.flatMap_singleton] at hlast
    change common.run.play piece.locate ++ variations.last.play piece.locate = _
    rw [play_eq_range' distinct hcommon, play_eq_range' distinct hlast]
    rfl

/-! ### The two readings of a piece -/

/-- The place of a region is the number of bars of the regions before it. -/
theorem getElem?_placed (piece : Structure) (index : Nat) :
    piece.placed[index]? = piece.regions.toList[index]?.map fun region ↦
      (((piece.regions.toList.take index).flatMap Region.bars).length, region) := by
  rw [placed, getElem?_placedFrom, List.length_flatMap]
  simp only [Nat.zero_add]

/-- Every region of a piece stands at its place. -/
theorem isPrefix_drop_of_mem_placed {place : Nat × Region} (h : place ∈ piece.placed) :
    place.2.bars <+: piece.bars.drop place.1 := by
  have hall : piece.regions.toList.flatMap Region.bars <+: piece.bars.drop 0 := List.prefix_refl _
  exact isPrefix_drop_of_mem_placedFrom hall h

/-- The first playing goes through the places of the regions. -/
theorem forward_eq_sounding (distinct : piece.ids.Nodup) : piece.forward = piece.sounding := by
  rw [forward, sounding, placed, ← flatMap_placedFrom (fun region ↦ region.bars.length) 0]
  exact List.flatMap_congr fun place hplace ↦
    region_forward_eq_sounding distinct (isPrefix_drop_of_mem_placed hplace)

/-- The replay goes through the places of the regions. -/
theorem replay_eq_replaySpan (distinct : piece.ids.Nodup) :
    piece.replay = piece.placed.flatMap fun place ↦ place.2.replaySpan place.1 := by
  rw [replay, placed, ← flatMap_placedFrom (fun region ↦ region.bars.length) 0]
  exact List.flatMap_congr fun place hplace ↦
    region_replay_eq_replaySpan distinct (isPrefix_drop_of_mem_placed hplace)

/-- The replay reaches exactly the replayable positions. -/
theorem mem_replay_iff (distinct : piece.ids.Nodup) {p : Nat} :
    p ∈ piece.replay ↔ piece.IsReplayable p := by
  rw [replay_eq_replaySpan distinct, List.mem_flatMap, IsReplayable]

/-- The replay of a region stays within the region. -/
theorem mem_replaySpan_within (place : Nat × Region) {p : Nat}
    (h : p ∈ place.2.replaySpan place.1) :
    place.1 ≤ p ∧ p < place.1 + place.2.bars.length := by
  obtain ⟨first, region⟩ := place
  cases region with
  | plain passage =>
    simpa [Region.replaySpan, Passage.span, Region.bars] using h
  | varied common variations =>
    have hall : (variations.toList.flatMap NonemptyList.toList).length =
        (variations.init.map NonemptyList.length).sum + variations.last.length := by
      rw [← variations.init_append_last]
      simp
    simp only [Region.replaySpan, Passage.span, List.mem_append, List.mem_range'_1] at h
    simp only [Region.bars, List.length_append, Passage.length_bars, hall]
    omega

/-- The positions that a replay of one region takes increase. -/
theorem region_replaySpan_pairwise (place : Nat × Region) :
    (place.2.replaySpan place.1).Pairwise (· < ·) := by
  obtain ⟨first, region⟩ := place
  cases region with
  | plain passage => exact List.pairwise_lt_range'
  | varied common variations =>
    refine List.pairwise_append.mpr ⟨List.pairwise_lt_range', List.pairwise_lt_range', ?_⟩
    intro p hp q hq
    simp only [Passage.span, List.mem_range'_1] at hp hq
    omega

/-- The replay of a piece takes the positions in increasing order. -/
theorem replay_pairwise (distinct : piece.ids.Nodup) : piece.replay.Pairwise (· < ·) := by
  rw [replay_eq_replaySpan distinct]
  exact (pairwise_flatMap_placedFrom _ (fun place _ hp ↦ mem_replaySpan_within place hp)
    region_replaySpan_pairwise 0 _).1

end Structure

end ScoreRepeats
