import ScoreRepeats.Proofs.SkippedPlaces
import ScoreRepeats.Proofs.ValidResolution

/-!
# Performances al Fine

The replay of a valid piece with a Fine ends with the Fine bar: it starts no later (`start_le_fine_iff`),
it does not pass over the bar, since both Codas stand before it, and nothing after the bar sounds. A
Fine in a variation that the replay skips is left out of this.

There is one more exception. A Da Capo after a pickup may lead to the second bar, and then a Fine on
the pickup itself stands before all that is replayed: the replay is empty, and the performance ends
with the last bar of the first playing (`getLast?_sounding`).
-/

set_option autoImplicit false
set_option relaxedAutoImplicit false

namespace ScoreRepeats

/-! ### The end of the first playing -/

/-- A range ends where its second part ends, if that part is not empty. -/
theorem getLast?_range'_add {first before size : Nat} (hsize : 0 < size) :
    (List.range' first (before + size)).getLast? = (List.range' (first + before) size).getLast? := by
  rw [← List.range'_append_1, List.getLast?_append, List.getLast?_range', List.getLast?_range',
    if_neg (Nat.pos_iff_ne_zero.mp hsize), Option.some_or]

namespace Region

/-- The first playing of a region ends with its last bar. -/
theorem getLast?_sounding (region : Region) (first : Nat) :
    (region.sounding first).getLast? = (List.range' first region.bars.length).getLast? := by
  cases region with
  | plain passage =>
    have hlength : (Region.plain passage).bars.length = passage.run.length := passage.length_bars
    rw [hlength]
    cases passage with
    | straight run => rfl
    | repeated run =>
      show (List.range' first run.length ++ List.range' first run.length).getLast? = _
      rw [List.getLast?_append, Option.or_self]
      rfl
  | varied common variations =>
    have hnonempty : 0 < (variations.toList.map NonemptyList.length).sum := by
      have hsum := sum_length_variations variations
      have hlast : 0 < variations.last.length := Nat.succ_pos _
      omega
    have hvariation : ∀ place : Nat × BarRun,
        (common.sounding first ++ List.range' place.1 place.2.length).getLast? =
          (List.range' place.1 place.2.length).getLast? := by
      intro place
      have hne : place.2.length ≠ 0 := Nat.succ_ne_zero _
      rw [List.getLast?_append, List.getLast?_range', if_neg hne, Option.some_or]
    rw [length_bars_varied, getLast?_range'_add hnonempty, ← flatMap_range'_placedFrom]
    simp only [sounding, placedVariations, List.getLast?_flatMap, hvariation]

end Region

namespace Structure

variable {piece : Structure} {rhythm : Option Rhythm} {auftakt : Bool} {index : MarkerIndex}

/-- The first playing of a piece ends with its last bar. -/
theorem getLast?_sounding (piece : Structure) : piece.sounding.getLast? = some (piece.size - 1) := by
  have hsize : piece.size ≠ 0 := fun h ↦ piece.bars_ne_nil (List.length_eq_zero_iff.mp h)
  have hlast : piece.sounding.getLast? = (List.range' 0 piece.size).getLast? := by
    rw [← flatMap_range'_placed]
    simp only [sounding, List.getLast?_flatMap, Region.getLast?_sounding]
  rw [hlast, List.getLast?_range', if_neg hsize, Nat.zero_add]

/-! ### The start of a replay and Fine -/

/-- The pickup is left out if it is shorter than a full bar and the last of several bars is full. -/
theorem skipsPickup_iff : piece.skipsPickup rhythm auftakt = true ↔
    auftakt = true ∧ 1 < piece.size ∧ piece.lastBar.ticks = Rhythm.fullBarOf rhythm ∧
      piece.firstBar.ticks < Rhythm.fullBarOf rhythm := by
  simp [skipsPickup]

/-- A Da Capo leads past the pickup, to the second bar. -/
def LeavesOutPickup (piece : Structure) (rhythm : Option Rhythm) (auftakt : Bool) : Prop :=
  piece.kind = .daCapo ∧ piece.skipsPickup rhythm auftakt = true

/-- Where the rules are kept, the replay starts no later than Fine, unless Fine is on a pickup that
is left out. -/
theorem KeepsRules.start_le_fine_iff (hkeeps : piece.KeepsRules rhythm auftakt) {start : Int}
    {fine : Nat} (hstart : piece.IsReplayStart rhythm auftakt (MarkerIndex.collect piece) start)
    (hfine : piece.StandsAt (·.has .fine) fine) :
    start ≤ (fine : Int) ↔ ¬ (piece.LeavesOutPickup rhythm auftakt ∧ fine = 0) := by
  unfold IsReplayStart at hstart
  unfold LeavesOutPickup
  cases hkind : piece.kind with
  | bare =>
    have hcount := hkeeps.fine.1
    rw [if_pos hkind] at hcount
    exact absurd hfine (countP_eq_zero_iff.mp (Nat.le_zero.mp hcount) fine)
  | dalSegno =>
    rw [hkind] at hstart
    have hplace := hkeeps.isPlaceOf_collect.1
    rw [hstart] at hplace
    obtain ⟨segno, rfl, hsegno⟩ := hplace.exists_standsAt
    have hlt := hkeeps.fine.2 segno fine hsegno hfine
    refine iff_of_true (Int.ofNat_le.mpr (Nat.le_of_lt hlt)) ?_
    simp
  | daCapo =>
    rw [hkind] at hstart
    dsimp only at hstart
    by_cases hskips : piece.skipsPickup rhythm auftakt = true
    · rw [if_pos (skipsPickup_iff.mp hskips)] at hstart
      simp only [hskips, true_and]
      omega
    · rw [if_neg (mt skipsPickup_iff.mpr hskips)] at hstart
      refine iff_of_true ?_ fun hpickup ↦ hskips hpickup.1.2
      omega

/-! ### The end of a replay -/

/-- Where the rules are kept, a Fine that the replay does not skip sounds in it if it is not before
the start. -/
theorem KeepsRules.soundsAgain_fine_iff (hkeeps : piece.KeepsRules rhythm auftakt) {start : Int}
    {fine : Nat} (hfine : piece.StandsAt (·.has .fine) fine) (hkept : ¬ piece.IsSkipped fine) :
    piece.SoundsAgain (MarkerIndex.collect piece) start fine ↔ start ≤ (fine : Int) := by
  obtain ⟨-, hplace, hplaceFirst, hplaceSecond, -⟩ := hkeeps.isPlaceOf_collect
  have hlt : fine < piece.size := by
    obtain ⟨bar, hbar, -⟩ := hfine
    exact (List.getElem?_eq_some_iff.mp hbar).1
  have hallows : (MarkerIndex.collect piece).AllowsFine fine := by
    intro other hother
    rw [hplace.eq_some hfine, Option.some.injEq] at hother
    exact Int.le_of_eq hother
  have hstays : ∀ comesTo : Nat → Prop, ¬ (MarkerIndex.collect piece).PassesOver comesTo fine := by
    rintro comesTo ⟨coda, -, hcoda, -, second, hsecond, hle⟩
    rw [hcoda] at hplaceFirst
    obtain ⟨first, -, hfirst⟩ := hplaceFirst.exists_standsAt
    obtain ⟨other, hother, -, hbefore⟩ := hkeeps.exists_codaSecond hfirst
    rw [hplaceSecond.eq_some hother, Option.some.injEq] at hsecond
    have hbeforeFine := hbefore fine hfine
    omega
  constructor
  · exact fun hsounds ↦ hsounds.2.1
  · exact fun hle ↦ ⟨(isReplayable_iff hlt).mpr hkept, hle, hallows, hstays _⟩

/-- Where the rules are kept, nothing sounds again after Fine. -/
theorem KeepsRules.le_fine_of_soundsAgain (hkeeps : piece.KeepsRules rhythm auftakt) {start : Int}
    {fine p : Nat} (hfine : piece.StandsAt (·.has .fine) fine)
    (hp : piece.SoundsAgain (MarkerIndex.collect piece) start p) : p ≤ fine := by
  have hplace := hkeeps.isPlaceOf_collect.2.1
  exact Int.ofNat_le.mp (hp.2.2.1 fine (hplace.eq_some hfine))

/-- Increasing positions end with the greatest of them. -/
theorem getLast?_eq_some_of_pairwise {positions : List Nat} {p : Nat}
    (hincreasing : positions.Pairwise (· < ·)) (hp : p ∈ positions)
    (hgreatest : ∀ q ∈ positions, q ≤ p) : positions.getLast? = some p := by
  obtain ⟨before, after, rfl⟩ := List.append_of_mem hp
  have hafter : after = [] := by
    refine List.eq_nil_iff_forall_not_mem.mpr fun q hq ↦ ?_
    have hlater := (List.pairwise_cons.mp (List.pairwise_append.mp hincreasing).2.1).1 q hq
    have hle := hgreatest q (by simp [hq])
    omega
  rw [hafter, List.getLast?_concat]

/-- Where the rules are kept, the last position is that of a Fine which the replay does not skip,
unless it is on a pickup that is left out. -/
theorem KeepsRules.getLast?_positions_eq_fine_iff (hkeeps : piece.KeepsRules rhythm auftakt)
    {replayed : List Nat} {fine : Nat}
    (hreplay : piece.IsReplay rhythm auftakt (MarkerIndex.collect piece) replayed)
    (hfine : piece.StandsAt (·.has .fine) fine) (hkept : ¬ piece.IsSkipped fine) :
    (piece.sounding ++ replayed).getLast? = some fine ↔
      ¬ (piece.LeavesOutPickup rhythm auftakt ∧ fine = 0) := by
  obtain ⟨start, hstart, hincreasing, hmem⟩ := hreplay
  have hstartLe := hkeeps.start_le_fine_iff hstart hfine
  have hgreatest : ∀ q ∈ replayed, q ≤ fine :=
    fun q hq ↦ hkeeps.le_fine_of_soundsAgain hfine ((hmem q).mp hq).2
  by_cases hle : start ≤ (fine : Int)
  · have hjump : piece.kind ≠ .bare := by
      intro hkind
      have hcount := hkeeps.fine.1
      rw [if_pos hkind] at hcount
      exact countP_eq_zero_iff.mp (Nat.le_zero.mp hcount) fine hfine
    have hsounds := (hkeeps.soundsAgain_fine_iff hfine hkept).mpr hle
    have hin : fine ∈ replayed := (hmem fine).mpr ⟨hjump, hsounds⟩
    refine iff_of_true ?_ (hstartLe.mp hle)
    rw [List.getLast?_append, getLast?_eq_some_of_pairwise hincreasing hin hgreatest, Option.some_or]
  · have hempty : replayed = [] := by
      refine List.eq_nil_iff_forall_not_mem.mpr fun q hq ↦ ?_
      have hfrom : start ≤ (q : Int) := ((hmem q).mp hq).2.2.1
      have hupTo := hgreatest q hq
      omega
    have hpickup := not_not.mp (mt hstartLe.mpr hle)
    have hsize : 1 < piece.size := (skipsPickup_iff.mp hpickup.1.2).2.1
    refine iff_of_false ?_ (not_not.mpr hpickup)
    rw [hempty, List.append_nil, getLast?_sounding, Option.some.injEq]
    omega

/-! ### The last entry -/

/-- An order ends with a bar just if the positions that it was made from end with its position. -/
theorem getLast?_entriesAfter_iff {p : Nat} {bar : Bar} (hbar : piece.bars[p]? = some bar)
    (earlier positions : List Nat) :
    (∃ pass, (piece.entriesAfter earlier positions).getLast? = some ⟨bar.id, pass, p, bar.ticks⟩) ↔
      positions.getLast? = some p := by
  have hmap : (piece.entriesAfter earlier positions).getLast?.map
      (fun entry ↦ (entry.id, entry.position, entry.ticks)) =
        positions.getLast?.map fun q ↦ ((piece.barAt q).id, q, (piece.barAt q).ticks) := by
    rw [← List.getLast?_map, ← List.getLast?_map]
    exact congrArg List.getLast? (map_entriesAfter _ _ (fun _ _ ↦ rfl) earlier positions)
  constructor
  · rintro ⟨pass, hlast⟩
    rw [hlast, Option.map_some, eq_comm, Option.map_eq_some_iff] at hmap
    obtain ⟨q, hq, hread⟩ := hmap
    simp only [Prod.mk.injEq] at hread
    rw [hq, hread.2.1]
  · intro hlast
    rw [hlast, Option.map_some, barAt_eq hbar, Option.map_eq_some_iff] at hmap
    obtain ⟨⟨id, pass, position, ticks⟩, hentry, hread⟩ := hmap
    simp only [Prod.mk.injEq] at hread
    obtain ⟨rfl, rfl, rfl⟩ := hread
    exact ⟨pass, hentry⟩

/-- A valid piece with a Fine, which does not stand in a variation that the replay skips, is played
to an order that ends with the Fine bar. The only exception is a Fine on a pickup that the Da Capo
leaves out. -/
theorem getLast?_entries_eq_fine_iff (hvalid : piece.validate rhythm auftakt = .ok index)
    {fine : Nat} {bar : Bar} (hbar : piece.bars[fine]? = some bar) (hfine : bar.has .fine = true)
    (hkept : ¬ piece.IsSkipped fine) :
    ∃ order, piece.resolveWith rhythm auftakt index = .ok order ∧
      ((∃ pass, order.entries.getLast? = some ⟨bar.id, pass, fine, bar.ticks⟩) ↔
        ¬ (piece.LeavesOutPickup rhythm auftakt ∧ fine = 0)) := by
  obtain ⟨hkeeps, rfl, replayed, hreplay, hresolve⟩ := exists_order_of_validate hvalid
  refine ⟨_, hresolve, ?_⟩
  rw [getLast?_entriesAfter_iff hbar]
  exact hkeeps.getLast?_positions_eq_fine_iff hreplay ⟨bar, hbar, hfine⟩ hkept

/-- The piece al Coda ends with its Fine bar. -/
theorem getLast?_entries_pieceAlCoda :
    pieceAlCoda.validate none false = .ok indexAlCoda ∧
      pieceAlCoda.bars[6]? = some (markedBar "G" .fine) ∧ ¬ pieceAlCoda.IsSkipped 6 ∧
      ∃ order pass, pieceAlCoda.resolveWith none false indexAlCoda = .ok order ∧
        order.entries.getLast? = some ⟨"G", pass, 6, 960⟩ := by
  have hvalid := validate_pieceAlCoda
  have hbar : pieceAlCoda.bars[6]? = some (markedBar "G" .fine) := rfl
  have hkept : ¬ pieceAlCoda.IsSkipped 6 := by decide
  obtain ⟨order, hresolve, hlast⟩ := getLast?_entries_eq_fine_iff hvalid hbar rfl hkept
  obtain ⟨pass, hpass⟩ := hlast.mpr fun hpickup ↦ absurd hpickup.2 (by decide)
  exact ⟨hvalid, hbar, hkept, order, pass, hresolve, hpass⟩

/-- A pickup that carries the Fine. -/
def pickupWithFine : Bar := { markedBar "P" .fine with ticks := 240, ticks_pos := by decide }

/-- A pickup with the Fine, a full bar, and a full bar with the Da Capo. -/
def pieceWithFineOnPickup : Structure :=
  ofRegions ⟨.plain (.straight ⟨pickupWithFine, [unmarkedBar "A", markedBar "B" .daCapo]⟩), []⟩ .daCapo

/-- The piece with the Fine on its pickup is valid, but ends with the bar of the Da Capo. -/
theorem getLast?_entries_pieceWithFineOnPickup :
    pieceWithFineOnPickup.validate none true = .ok ⟨none, some 0, none, none, some 2⟩ ∧
      pieceWithFineOnPickup.bars[0]? = some pickupWithFine ∧ pickupWithFine.has .fine = true ∧
      ¬ pieceWithFineOnPickup.IsSkipped 0 ∧
      ∃ order, pieceWithFineOnPickup.resolveWith none true ⟨none, some 0, none, none, some 2⟩ =
          .ok order ∧
        order.entries.getLast? = some ⟨"B", 1, 2, 960⟩ ∧
        ∀ pass, order.entries.getLast? ≠ some ⟨"P", pass, 0, 240⟩ := by
  -- The replay is to start at the second bar, which is past the Fine.
  have hnavigate : navigate ⟨none, some 0, none, none, some 2⟩ [1, 2] = .ok [] := by
    rw [navigate]
    rfl
  have hreplayed : pieceWithFineOnPickup.replayed none true ⟨none, some 0, none, none, some 2⟩ =
      .ok [] := hnavigate
  have hresolve : pieceWithFineOnPickup.resolveWith none true ⟨none, some 0, none, none, some 2⟩ =
      .ok ⟨[⟨"P", 1, 0, 240⟩, ⟨"A", 1, 1, 960⟩, ⟨"B", 1, 2, 960⟩]⟩ := by
    rw [resolveWith, hreplayed]
    rfl
  refine ⟨rfl, rfl, rfl, by decide, _, hresolve, rfl, fun pass h ↦ ?_⟩
  simp at h

end Structure

end ScoreRepeats
