import ScoreRepeats.Proofs.PlainBars
import ScoreRepeats.Proofs.RegionPlaces
import ScoreRepeats.Proofs.ReplayNavigation

/-!
# The order that a structure resolves to

What a piece sounds like can be said without playing it. First come the positions of its regions from
top to bottom (`Structure.sounding`). After a jump come, in increasing order, the positions that a
replay can reach, from the start of the replay (`Structure.IsReplayStart`) up to Fine, without those
between the Codas if the replay comes to the first of them.
Resolution gives just that for every piece whose bars have ids of their own, by every index that a
replay can be navigated by; the part after the jump is `exists_replayed_eq_ok`.
-/

set_option autoImplicit false
set_option relaxedAutoImplicit false

namespace ScoreRepeats.Structure

/-- Where the replay of a piece starts: at the Segno if the jump is a Dal Segno, and otherwise at the
first bar, or at the second if the first is a pickup, shorter than a full bar, and the last bar is
full without it. -/
def IsReplayStart (piece : Structure) (rhythm : Option Rhythm) (auftakt : Bool)
    (index : MarkerIndex) (start : Int) : Prop :=
  match piece.kind with
  | .dalSegno => index.segno = some start
  | _ =>
    start = if auftakt = true ∧ 1 < piece.size ∧ piece.lastBar.ticks = Rhythm.fullBarOf rhythm ∧
      piece.firstBar.ticks < Rhythm.fullBarOf rhythm then 1 else 0

/-- The positions that sound after the jump: those that a replay can reach, from its start on, not
past Fine and not passed over at the Codas. -/
def SoundsAgain (piece : Structure) (index : MarkerIndex) (start : Int) (p : Nat) : Prop :=
  piece.IsReplayable p ∧ start ≤ (p : Int) ∧ index.AllowsFine p ∧
    ¬ index.PassesOver (fun coda ↦ piece.IsReplayable coda ∧ start ≤ (coda : Int)) p

variable {piece : Structure} {index : MarkerIndex}

/-- The bar at a position of the piece. -/
theorem barAt_eq {p : Nat} {bar : Bar} (hbar : piece.bars[p]? = some bar) : piece.barAt p = bar := by
  rw [barAt, List.getD_eq_getElem?_getD, hbar, Option.getD_some]

/-- What an entry tells without the number of its pass depends on its position alone. -/
theorem map_entriesAfter {β : Type} (read : PlayedBar → β) (readAt : Nat → β)
    (hread : ∀ pass p, read ⟨(piece.barAt p).id, pass, p, (piece.barAt p).ticks⟩ = readAt p)
    (earlier positions : List Nat) :
    (piece.entriesAfter earlier positions).map read = positions.map readAt := by
  induction positions generalizing earlier with
  | nil => rfl
  | cons position rest ih => simp only [entriesAfter, List.map_cons, hread, ih]

/-- The entries of an order stand at the positions that it was made from. -/
theorem map_position_entriesAfter (earlier positions : List Nat) :
    (piece.entriesAfter earlier positions).map PlayedBar.position = positions := by
  rw [map_entriesAfter PlayedBar.position id (fun _ _ ↦ rfl), List.map_id]

/-- After the entries for some positions come those for others. -/
theorem entriesAfter_append (earlier positions more : List Nat) :
    piece.entriesAfter earlier (positions ++ more) =
      piece.entriesAfter earlier positions ++
        piece.entriesAfter (positions.reverse ++ earlier) more := by
  induction positions generalizing earlier with
  | nil => rfl
  | cons p rest ih =>
    simp only [List.cons_append, entriesAfter, ih, List.reverse_cons, List.append_assoc,
      List.nil_append]

/-- Where the bar at just one of the positions has an id, the entries with the id are those at this
position. -/
theorem countP_id_entriesAfter {positions : List Nat} {id : String} {p : Nat}
    (hid : ∀ q ∈ positions, (piece.barAt q).id = id ↔ q = p) (earlier : List Nat) :
    (piece.entriesAfter earlier positions).countP (fun entry ↦ entry.id == id) =
      positions.count p := by
  have hentries : (piece.entriesAfter earlier positions).map PlayedBar.id =
      positions.map fun q ↦ (piece.barAt q).id :=
    map_entriesAfter _ _ (fun _ _ ↦ rfl) earlier positions
  calc (piece.entriesAfter earlier positions).countP (fun entry ↦ entry.id == id)
      = ((piece.entriesAfter earlier positions).map PlayedBar.id).countP (· == id) := by
        rw [List.countP_map]
        rfl
    _ = positions.countP fun q ↦ (piece.barAt q).id == id := by
        rw [hentries, List.countP_map]
        rfl
    _ = positions.count p := by
        refine List.countP_congr fun q hq ↦ ?_
        rw [beq_iff_eq, beq_iff_eq, hid q hq]

/-- The start that a replay takes is the one that it should take. -/
theorem exists_replayStart_eq_ok (rhythm : Option Rhythm) (auftakt : Bool)
    (hsegno : piece.kind = .dalSegno → index.segno ≠ none) :
    ∃ start, piece.replayStart rhythm auftakt index = .ok start ∧
      piece.IsReplayStart rhythm auftakt index start := by
  unfold replayStart IsReplayStart
  cases hkind : piece.kind with
  | dalSegno =>
    obtain ⟨segno, hsome⟩ := Option.ne_none_iff_exists'.mp (hsegno hkind)
    exact ⟨segno, by rw [hsome], hsome⟩
  | bare => simp [skipsPickup]
  | daCapo => simp [skipsPickup]

/-- The replay from a start on, navigated by the marks. -/
theorem exists_navigate_from_eq_ok (distinct : piece.ids.Nodup) (hpaired : index.HasPairedCodas)
    (start : Int) :
    ∃ replayed, navigate index
        (piece.replay.dropWhile fun position ↦ decide ((position : Int) < start)) = .ok replayed ∧
      replayed.Pairwise (· < ·) ∧ ∀ p, p ∈ replayed ↔ piece.SoundsAgain index start p := by
  have hincreasing := replay_pairwise distinct
  have hfrom : ∀ p : Nat,
      p ∈ piece.replay.dropWhile (fun position : Nat ↦ decide ((position : Int) < start)) ↔
        piece.IsReplayable p ∧ start ≤ (p : Int) := by
    intro p
    rw [mem_dropWhile_iff hincreasing (by simp only [decide_eq_true_eq]; omega),
      mem_replay_iff distinct]
    simp
  obtain ⟨replayed, hreplayed, hsublist, hmem⟩ := exists_navigate_eq_ok hpaired
    (hincreasing.sublist (List.dropWhile_sublist _))
  refine ⟨replayed, hreplayed,
    (hincreasing.sublist (List.dropWhile_sublist _)).sublist hsublist, fun p ↦ ?_⟩
  simp only [hmem, hfrom, SoundsAgain, and_assoc]

/-- The part of a replay that sounds: nothing without a jump, and what sounds again after one. -/
theorem exists_replayed_eq_ok (rhythm : Option Rhythm) (auftakt : Bool)
    (distinct : piece.ids.Nodup) (hsegno : piece.kind = .dalSegno → index.segno ≠ none)
    (hpaired : index.HasPairedCodas) :
    ∃ start replayed, piece.IsReplayStart rhythm auftakt index start ∧
      piece.replayed rhythm auftakt index = .ok replayed ∧ replayed.Pairwise (· < ·) ∧
      ∀ p, p ∈ replayed ↔ piece.kind ≠ .bare ∧ piece.SoundsAgain index start p := by
  obtain ⟨start, hok, hstart⟩ := exists_replayStart_eq_ok rhythm auftakt hsegno
  obtain ⟨again, hagain, hpairwise, hmem⟩ := exists_navigate_from_eq_ok distinct hpaired start
  unfold replayed
  cases hkind : piece.kind with
  | bare => exact ⟨start, [], hstart, rfl, List.Pairwise.nil, by simp⟩
  | daCapo => exact ⟨start, again, hstart, by simp only [hok, hagain], hpairwise, by simp [hmem]⟩
  | dalSegno => exact ⟨start, again, hstart, by simp only [hok, hagain], hpairwise, by simp [hmem]⟩

/-- After the first playing, a piece goes again through these positions: in increasing order those that
sound after the jump, and none if there is no jump. -/
def IsReplay (piece : Structure) (rhythm : Option Rhythm) (auftakt : Bool) (index : MarkerIndex)
    (replayed : List Nat) : Prop :=
  ∃ start, piece.IsReplayStart rhythm auftakt index start ∧ replayed.Pairwise (· < ·) ∧
    ∀ p, p ∈ replayed ↔ piece.kind ≠ .bare ∧ piece.SoundsAgain index start p

/-- The order of a piece has an entry for each position of the first playing and of the replay. -/
theorem exists_resolveWith_eq_ok (rhythm : Option Rhythm) (auftakt : Bool)
    (distinct : piece.ids.Nodup) (hsegno : piece.kind = .dalSegno → index.segno ≠ none)
    (hpaired : index.HasPairedCodas) :
    ∃ replayed, piece.IsReplay rhythm auftakt index replayed ∧
      piece.resolveWith rhythm auftakt index =
        .ok ⟨piece.entriesAfter [] (piece.sounding ++ replayed)⟩ := by
  obtain ⟨start, replayed, hstart, hreplayed, hpairwise, hmem⟩ :=
    exists_replayed_eq_ok rhythm auftakt distinct hsegno hpaired
  refine ⟨replayed, ⟨start, hstart, hpairwise, hmem⟩, ?_⟩
  rw [resolveWith, hreplayed, ← forward_eq_sounding distinct]
  rfl

/-- A piece whose bars have ids of their own is played by every index that has the Segno of a Dal
Segno piece and no first Coda without a second one at it or after it. The order goes through all
regions from top to bottom and then, if there is a jump, through what sounds again. -/
theorem positions_eq_sounding_append_replayed (rhythm : Option Rhythm) (auftakt : Bool)
    (distinct : piece.ids.Nodup) (hsegno : piece.kind = .dalSegno → index.segno ≠ none)
    (hpaired : index.HasPairedCodas) :
    ∃ order start replayed, piece.resolveWith rhythm auftakt index = .ok order ∧
      piece.IsReplayStart rhythm auftakt index start ∧
      order.entries.map PlayedBar.position = piece.sounding ++ replayed ∧
      replayed.Pairwise (· < ·) ∧
      ∀ p, p ∈ replayed ↔ piece.kind ≠ .bare ∧ piece.SoundsAgain index start p := by
  obtain ⟨start, replayed, hstart, hreplayed, hpairwise, hmem⟩ :=
    exists_replayed_eq_ok rhythm auftakt distinct hsegno hpaired
  refine ⟨⟨piece.entriesAfter [] (piece.forward ++ replayed)⟩, start, replayed, ?_, hstart, ?_,
    hpairwise, hmem⟩
  · rw [resolveWith, hreplayed]
    rfl
  · rw [map_position_entriesAfter, forward_eq_sounding distinct]

/-- A repeat of two bars, a bar with two endings and two more bars, with a Dal Segno at the end. -/
def pieceWithEndings : Structure :=
  ofRegions
    ⟨.plain (.repeated ⟨unmarkedBar "A", [unmarkedBar "B"]⟩),
      [.varied (.straight ⟨unmarkedBar "C", []⟩)
        ⟨⟨unmarkedBar "D", []⟩, [⟨unmarkedBar "E", []⟩]⟩,
      .plain (.straight ⟨unmarkedBar "F", [unmarkedBar "G"]⟩)]⟩
    .dalSegno

/-- The second bar is the Segno, the common bar and the second ending are the Codas, and the bar
after them is Fine. -/
def indexWithCodas : MarkerIndex := ⟨some 1, some 5, some 2, some 4, none⟩

/-- The piece with endings by the index with Codas: ten bars at first playing, and the replay starts
at the second bar. -/
theorem positions_pieceWithEndings :
    pieceWithEndings.ids.Nodup ∧ indexWithCodas.segno ≠ none ∧ indexWithCodas.HasPairedCodas ∧
      ∃ order replayed, pieceWithEndings.resolveWith none false indexWithCodas = .ok order ∧
        order.entries.map PlayedBar.position = [0, 1, 0, 1, 2, 3, 2, 4, 5, 6] ++ replayed ∧
        replayed.Pairwise (· < ·) ∧
        ∀ p, p ∈ replayed ↔ pieceWithEndings.SoundsAgain indexWithCodas 1 p := by
  have distinct : pieceWithEndings.ids.Nodup := by decide
  have hsegno : indexWithCodas.segno ≠ none := by decide
  have hpaired : indexWithCodas.HasPairedCodas := by
    intro first hfirst
    cases hfirst
    exact ⟨4, rfl, by decide⟩
  obtain ⟨order, start, replayed, horder, hstart, hpositions, hpairwise, hmem⟩ :=
    positions_eq_sounding_append_replayed none false distinct (fun _ ↦ hsegno) hpaired
  cases hstart
  refine ⟨distinct, hsegno, hpaired, order, replayed, horder, hpositions, hpairwise, fun p ↦ ?_⟩
  rw [hmem, and_iff_right]
  decide

/-- After the Segno the replay goes from the first Coda to the bar after the second. -/
example : (pieceWithEndings.resolveWith none false indexWithCodas).map
    (fun order ↦ order.entries.map PlayedBar.position) =
      .ok [0, 1, 0, 1, 2, 3, 2, 4, 5, 6, 1, 5] := by
  cbv

end ScoreRepeats.Structure
