import ScoreRepeats.Proofs.AlFine

/-!
# Pickups in a replay

In a Da Capo piece with a pickup, two tests look at the same three lengths. Validation wants the
last bar to be full, or to be completed by the first. Resolution leaves the first bar out of the
replay if it is shorter than a full bar and the last of several bars is full. The tests fit
together: that there are several bars follows from the lengths (`Structure.skipsPickup_true_iff`),
and a short first bar that is not left out completes the last bar
(`Structure.KeepsRules.ticks_add_ticks_eq`). So the bar line at the jump always closes a full bar.
-/

set_option autoImplicit false
set_option relaxedAutoImplicit false

namespace ScoreRepeats.Structure

variable {piece : Structure} {rhythm : Option Rhythm} {auftakt : Bool} {index : MarkerIndex}

/-- A piece of one bar begins and ends with it. -/
theorem firstBar_eq_lastBar (hsize : ¬ 1 < piece.size) : piece.firstBar = piece.lastBar := by
  have hfirst := piece.head?_bars
  have hlast := piece.getLast?_bars
  rw [size] at hsize
  cases hbars : piece.bars with
  | nil => exact absurd hbars piece.bars_ne_nil
  | cons bar rest =>
    rw [hbars, List.length_cons] at hsize
    obtain rfl : rest = [] := List.length_eq_zero_iff.mp (by omega)
    rw [hbars, List.head?_singleton, Option.some.injEq] at hfirst
    rw [hbars, List.getLast?_singleton, Option.some.injEq] at hlast
    rw [← hfirst, hlast]

/-- With a pickup, the first bar is left out if the last is full and the first is not: these are two
bars, since their lengths differ. -/
theorem skipsPickup_true_iff : piece.skipsPickup rhythm true = true ↔
    piece.lastBar.ticks = Rhythm.fullBarOf rhythm ∧
      piece.firstBar.ticks < Rhythm.fullBarOf rhythm := by
  rw [skipsPickup_iff]
  constructor
  · rintro ⟨-, -, hlast, hfirst⟩
    exact ⟨hlast, hfirst⟩
  · rintro ⟨hlast, hfirst⟩
    refine ⟨rfl, ?_, hlast, hfirst⟩
    by_contra hsize
    rw [firstBar_eq_lastBar hsize, hlast] at hfirst
    exact Nat.lt_irrefl _ hfirst

/-- Where the rules are kept, a short pickup that is not left out completes the last bar. -/
theorem KeepsRules.ticks_add_ticks_eq (hkeeps : piece.KeepsRules rhythm true)
    (hkind : piece.kind = .daCapo) (hkept : ¬ piece.skipsPickup rhythm true = true)
    (hshort : piece.firstBar.ticks < Rhythm.fullBarOf rhythm) :
    piece.firstBar.ticks + piece.lastBar.ticks = Rhythm.fullBarOf rhythm := by
  refine (hkeeps.pickup rfl hkind).resolve_left fun hfull ↦ ?_
  exact hkept (skipsPickup_true_iff.mpr ⟨hfull, hshort⟩)

/-- A pickup that is left out does not sound in the replay after a Da Capo. -/
theorem IsReplay.zero_not_mem {replayed : List Nat}
    (hreplay : piece.IsReplay rhythm auftakt index replayed) (hkind : piece.kind = .daCapo)
    (hskips : piece.skipsPickup rhythm auftakt = true) : 0 ∉ replayed := by
  obtain ⟨start, hstart, -, hmem⟩ := hreplay
  rw [IsReplayStart, hkind] at hstart
  dsimp only at hstart
  rw [if_pos (skipsPickup_iff.mp hskips)] at hstart
  intro hzero
  have hfrom : start ≤ ((0 : Nat) : Int) := ((hmem 0).mp hzero).2.2.1
  omega

/-- A valid Da Capo piece with a pickup is resolved, with its index and without, to an order that
closes with a full bar before it goes on with the replay. A pickup that is shorter than a full bar
is not replayed if the last bar is full; and if it is replayed, then it completes the last bar. -/
theorem replayed_pickup_completes_lastBar (hvalid : piece.validate rhythm true = .ok index)
    (hkind : piece.kind = .daCapo) :
    ∃ order replayed, piece.resolveWith rhythm true index = .ok order ∧
      piece.resolve rhythm true = .ok order ∧
      order.entries.map PlayedBar.position = piece.sounding ++ replayed ∧
      (piece.lastBar.ticks = Rhythm.fullBarOf rhythm →
        piece.firstBar.ticks < Rhythm.fullBarOf rhythm → 0 ∉ replayed) ∧
      (0 ∈ replayed → piece.firstBar.ticks < Rhythm.fullBarOf rhythm →
        piece.firstBar.ticks + piece.lastBar.ticks = Rhythm.fullBarOf rhythm) := by
  obtain ⟨hkeeps, rfl, replayed, hreplay, hresolve⟩ := exists_order_of_validate hvalid
  refine ⟨_, replayed, hresolve, ?_, map_position_entriesAfter _ _, ?_, ?_⟩
  · rw [resolve_of_inconsistency_eq_none hkeeps.inconsistency_eq_none, hresolve]
  · intro hfull hshort
    exact hreplay.zero_not_mem hkind (skipsPickup_true_iff.mpr ⟨hfull, hshort⟩)
  · intro hzero hshort
    refine hkeeps.ticks_add_ticks_eq hkind (fun hskips ↦ ?_) hshort
    exact hreplay.zero_not_mem hkind hskips hzero

theorem quarterTicks_pos : 0 < 240 := by decide

/-- A pickup of a quarter note, a full bar of common time, and a last bar with the Da Capo. -/
def pieceWithPickup (last : Nat) (positive : 0 < last) : Structure :=
  ofRegions
    ⟨.plain (.straight
      ⟨{ unmarkedBar "P" with ticks := 240, ticks_pos := quarterTicks_pos },
        [unmarkedBar "A", { markedBar "B" .daCapo with ticks := last, ticks_pos := positive }]⟩),
      []⟩
    .daCapo

/-- Only the Da Capo of the piece with a pickup is indexed. -/
def indexOfDaCapo : MarkerIndex := ⟨none, none, none, none, some 2⟩

/-- A last bar of three quarters is completed by the pickup, which is replayed; before a full last
bar it is not. -/
theorem replayed_pieceWithPickup :
    (pieceWithPickup 720 (by decide)).validate none true = .ok indexOfDaCapo ∧
      (∃ order, (pieceWithPickup 720 (by decide)).resolveWith none true indexOfDaCapo = .ok order ∧
        order.entries.map PlayedBar.position = [0, 1, 2] ++ [0, 1, 2]) ∧
      240 + 720 = Rhythm.fullBarOf none ∧
      (pieceWithPickup 960 (by decide)).validate none true = .ok indexOfDaCapo ∧
      ∃ order replayed, (pieceWithPickup 960 (by decide)).resolveWith none true indexOfDaCapo =
          .ok order ∧
        order.entries.map PlayedBar.position = [0, 1, 2] ++ replayed ∧ 0 ∉ replayed := by
  have hvalid : (pieceWithPickup 720 (by decide)).validate none true = .ok indexOfDaCapo := rfl
  have hvalid' : (pieceWithPickup 960 (by decide)).validate none true = .ok indexOfDaCapo := rfl
  have hnavigate : navigate indexOfDaCapo [0, 1, 2] = .ok [0, 1, 2] := by
    simp [navigate, indexOfDaCapo, Except.map]
  have hagain : (pieceWithPickup 720 (by decide)).replayed none true indexOfDaCapo =
      .ok [0, 1, 2] := hnavigate
  obtain ⟨order, replayed, hresolve, -, hreplayed, -, hcompletes⟩ :=
    replayed_pickup_completes_lastBar hvalid rfl
  obtain ⟨order', replayed', hresolve', -, hreplayed', hleaves, -⟩ :=
    replayed_pickup_completes_lastBar hvalid' rfl
  have horder := hresolve
  rw [resolveWith, hagain] at horder
  have hpositions : order.entries.map PlayedBar.position = [0, 1, 2] ++ [0, 1, 2] := by
    rw [← Except.ok.inj horder, map_position_entriesAfter]
    rfl
  have hzero : 0 ∈ replayed := by
    obtain rfl := List.append_cancel_left (hreplayed.symm.trans hpositions)
    decide
  exact ⟨hvalid, ⟨order, hresolve, hpositions⟩, hcompletes hzero (by decide), hvalid',
    order', replayed', hresolve', hreplayed', hleaves rfl (by decide)⟩

end ScoreRepeats.Structure
