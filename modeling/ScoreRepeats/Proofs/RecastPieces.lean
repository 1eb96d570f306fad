import Mathlib.Data.List.GetD
import ScoreRepeats.Proofs.PassCounts
import ScoreRepeats.Proofs.RecastBars
import ScoreRepeats.Proofs.ViolationPlaces

/-!
# Recast pieces

What a piece looks like does not change when other bars stand in its places: the regions take up the
same positions (`Structure.placed_mapBars`), the marks of navigation stand where they stood
(`Structure.collect_recast`), and each test of the marks finds the violation that it found before
(`Structure.markViolation_recast`). Only two rules ask for lengths, and both ask for those of the
first and the last bar of a Da Capo piece (`Structure.SamePickup`).

So two scores whose bars become the same by recasting are performed alike or refused alike: their
orders go through the same positions in the same passes, or their violations break the same rule at
the same positions (`perform_agrees`).
-/

set_option autoImplicit false
set_option relaxedAutoImplicit false

namespace ScoreRepeats

/-! ### The same places -/

/-- Things of the same sizes are placed where the others are. -/
theorem placedFrom_map {α β : Type} {size : α → Nat} {sizeOther : β → Nat} {f : α → β}
    (hsize : ∀ item, sizeOther (f item) = size item) (first : Nat) (items : List α) :
    placedFrom sizeOther first (items.map f) =
      (placedFrom size first items).map fun place ↦ (place.1, f place.2) := by
  induction items generalizing first with
  | nil => rfl
  | cons item rest ih => rw [List.map_cons, placedFrom, placedFrom, List.map_cons, hsize, ih]

section MapBars

variable (f : Bar → Bar)

theorem Passage.run_mapBars (passage : Passage) : (passage.mapBars f).run = passage.run.map f := by
  cases passage <;> rfl

theorem Passage.sounding_mapBars (passage : Passage) (first : Nat) :
    (passage.mapBars f).sounding first = passage.sounding first := by
  cases passage <;> simp only [mapBars, sounding, span, run, NonemptyList.length_map]

namespace Region

variable (region : Region) (first : Nat)

theorem firstBar_mapBars : (region.mapBars f).firstBar = f region.firstBar := by
  obtain ⟨⟨run⟩ | ⟨run⟩⟩ | ⟨⟨run⟩ | ⟨run⟩, variations⟩ := region <;> rfl

/-- With other bars in its places, a region is played at the same positions. -/
theorem sounding_mapBars : (region.mapBars f).sounding first = region.sounding first := by
  cases region with
  | plain passage => exact passage.sounding_mapBars f first
  | varied common variations =>
    simp only [mapBars, sounding, placedVariations, Passage.sounding_mapBars, Passage.run_mapBars,
      NonemptyList.length_map, NonemptyList.toList_map]
    rw [placedFrom_map (NonemptyList.length_map f), List.flatMap_map]
    simp only [NonemptyList.length_map]

/-- With other bars in its places, a replay takes the same positions of a region. -/
theorem replaySpan_mapBars : (region.mapBars f).replaySpan first = region.replaySpan first := by
  cases region with
  | plain passage =>
    simp only [mapBars, replaySpan, Passage.span, Passage.run_mapBars, NonemptyList.length_map]
  | varied common variations =>
    simp only [mapBars, replaySpan, Passage.span, Passage.run_mapBars, NonemptyList.length_map,
      NonemptyList.init_map, NonemptyList.last_map, List.map_map, Function.comp_def]

end Region

namespace Structure

variable (piece : Structure)

theorem kind_mapBars : (piece.mapBars f).kind = piece.kind := rfl

theorem regions_mapBars : (piece.mapBars f).regions = piece.regions.map (Region.mapBars f) := by
  apply NonemptyList.ext
  simp only [regions, mapBars, NonemptyList.toList_map, List.map_map, Function.comp_def]

theorem bars_mapBars : (piece.mapBars f).bars = piece.bars.map f := by
  simp only [bars, regions_mapBars, NonemptyList.toList_map, List.flatMap_map, Region.bars_mapBars,
    List.map_flatMap]

theorem size_mapBars : (piece.mapBars f).size = piece.size := by
  rw [size, size, bars_mapBars, List.length_map]

theorem firstBar_mapBars : (piece.mapBars f).firstBar = f piece.firstBar := by
  rw [firstBar, firstBar, regions_mapBars]
  exact Region.firstBar_mapBars f _

theorem barAt_mapBars (p : Nat) : (piece.mapBars f).barAt p = f (piece.barAt p) := by
  rw [barAt, barAt, bars_mapBars, firstBar_mapBars, List.getD_map]

/-- The regions stand where they stood. -/
theorem placed_mapBars : (piece.mapBars f).placed =
    piece.placed.map fun place ↦ (place.1, place.2.mapBars f) := by
  rw [placed, placed, regions_mapBars, NonemptyList.toList_map]
  exact placedFrom_map (fun region ↦ by rw [Region.bars_mapBars, List.length_map]) 0 _

/-- The first playing goes through the same positions. -/
theorem sounding_mapBars : (piece.mapBars f).sounding = piece.sounding := by
  simp only [sounding, placed_mapBars, List.flatMap_map, Region.sounding_mapBars]

/-- The positions of the bars that pass a test are those of the bars whose others pass it. -/
theorem positionsWhere_mapBars (test : Bar → Bool) :
    (piece.mapBars f).positionsWhere test = piece.positionsWhere fun bar ↦ test (f bar) := by
  simp only [positionsWhere, bars_mapBars, List.zipIdx_map, List.filter_map, List.map_map,
    Function.comp_def, Prod.map]
  rfl

end Structure

end MapBars

/-! ### The same tests -/

/-- A search among other things finds what stands for the first find. -/
theorem findSome?_map_eq_map {α β γ : Type} {find : α → Option γ} {findOther : β → Option γ}
    {f : α → β} {g : γ → γ} {items : List α}
    (hfind : ∀ item ∈ items, findOther (f item) = (find item).map g) :
    (items.map f).findSome? findOther = (items.findSome? find).map g := by
  induction items with
  | nil => rfl
  | cons item rest ih =>
    obtain ⟨hitem, hrest⟩ := List.forall_mem_cons.mp hfind
    rw [List.map_cons, List.findSome?_cons, List.findSome?_cons, hitem, ih hrest]
    cases find item <;> rfl

namespace Structure

variable {recasting : Recasting} {piece : Structure}

/-- The marks of navigation stand where they stood. -/
theorem positionsOf_recast (marker : Marker) (hmarker : marker.isRepeatMark = false) :
    (piece.mapBars recasting.bar).positionsOf marker = piece.positionsOf marker := by
  rw [positionsOf, positionsWhere_mapBars]
  simp only [recasting.has_bar _ marker hmarker]
  rfl

theorem positionOf_recast (marker : Marker) (hmarker : marker.isRepeatMark = false) :
    (piece.mapBars recasting.bar).positionOf marker = piece.positionOf marker := by
  rw [positionOf, positionOf, positionsOf_recast marker hmarker]

theorem jumpPositions_recast :
    (piece.mapBars recasting.bar).jumpPositions = piece.jumpPositions := by
  rw [jumpPositions, positionsWhere_mapBars]
  simp only [recasting.hasJump_bar]
  rfl

/-- The collected index is the same. -/
theorem collect_recast :
    MarkerIndex.collect (piece.mapBars recasting.bar) = MarkerIndex.collect piece := by
  unfold MarkerIndex.collect
  rw [positionOf_recast .segno rfl, positionOf_recast .fine rfl, positionOf_recast .codaFirst rfl,
    positionOf_recast .codaSecond rfl, jumpPositions_recast]

/-- A bar is found where the old one was. -/
theorem locate_recast (hseparates : recasting.Separates piece.ids) {id : String}
    (hid : id ∈ piece.ids) :
    (piece.mapBars recasting.bar).locate (recasting.rename id) = piece.locate id := by
  have hids : (piece.mapBars recasting.bar).ids = piece.ids.map recasting.rename := by
    rw [ids, bars_mapBars, recasting.map_id_map_bar, ids]
  rw [locate, locate, hids]
  refine idxOf_map_of_injOn (hseparates.mono fun other hother ↦ ?_)
  rcases List.mem_cons.mp hother with rfl | hother
  · exact hid
  · exact hother

theorem jumpViolation_recast : (piece.mapBars recasting.bar).jumpViolation =
    piece.jumpViolation.map (·.rename recasting.rename) := by
  unfold jumpViolation
  rw [jumpPositions_recast, size_mapBars]
  split
  · rfl
  · rw [barAt_mapBars, recasting.id_bar]
    split_ifs <;> rfl
  · rfl

theorem segnoViolation_recast : (piece.mapBars recasting.bar).segnoViolation =
    piece.segnoViolation.map (·.rename recasting.rename) := by
  unfold segnoViolation
  rw [kind_mapBars, positionsOf_recast .segno rfl, jumpPositions_recast]
  split <;> rfl

theorem fineViolation_recast : (piece.mapBars recasting.bar).fineViolation =
    piece.fineViolation.map (·.rename recasting.rename) := by
  unfold fineViolation
  rw [kind_mapBars, positionsOf_recast .fine rfl, positionOf_recast .segno rfl]
  split
  · rfl
  · split_ifs
    · rfl
    · rfl
    · split
      · rfl
      · split_ifs <;> rfl

theorem codaViolation_recast : (piece.mapBars recasting.bar).codaViolation =
    piece.codaViolation.map (·.rename recasting.rename) := by
  have hcodas : (piece.mapBars recasting.bar).codaPositions = piece.codaPositions := by
    rw [codaPositions, positionsWhere_mapBars]
    simp only [recasting.has_bar _ .codaFirst rfl, recasting.has_bar _ .codaSecond rfl]
    rfl
  have hfirsts := @positionsOf_recast recasting piece .codaFirst rfl
  have hseconds := @positionsOf_recast recasting piece .codaSecond rfl
  by_cases hnil : piece.codaPositions = []
  · rw [codaViolation_of_nil hnil, codaViolation_of_nil (hcodas.trans hnil), Option.map_none]
  have hnil' : (piece.mapBars recasting.bar).codaPositions ≠ [] := by rwa [hcodas]
  by_cases hbare : piece.kind = .bare
  · rw [codaViolation_of_bare hnil hbare, codaViolation_of_bare hnil' hbare, hcodas]
    rfl
  by_cases hpair : (piece.positionsOf .codaFirst).length = 1 ∧
      (piece.positionsOf .codaSecond).length = 1
  · obtain ⟨first, hfirst⟩ := List.length_eq_one_iff.mp hpair.1
    obtain ⟨second, hsecond⟩ := List.length_eq_one_iff.mp hpair.2
    rw [codaViolation_of_pair hnil hbare hfirst hsecond,
      codaViolation_of_pair hnil' hbare (hfirsts.trans hfirst) (hseconds.trans hsecond),
      positionOf_recast .fine rfl]
    split_ifs
    · rfl
    · cases piece.positionOf .fine with
      | none => rfl
      | some fine =>
        simp only [Option.bind_some]
        split_ifs <;> rfl
  · rw [codaViolation_of_not_pair hnil hbare hpair,
      codaViolation_of_not_pair hnil' hbare (by rwa [hfirsts, hseconds]), hcodas]
    rfl

theorem variationViolation_recast (hseparates : recasting.Separates piece.ids) :
    (piece.mapBars recasting.bar).variationViolation =
      piece.variationViolation.map (·.rename recasting.rename) := by
  unfold variationViolation
  rw [regions_mapBars, NonemptyList.toList_map]
  refine findSome?_map_eq_map fun region hregion ↦ ?_
  cases region with
  | plain passage => rfl
  | varied common variations =>
    have hfirst : common.firstBar.id ∈ piece.ids :=
      List.mem_map_of_mem (List.mem_flatMap.mpr ⟨_, hregion, List.mem_cons_self⟩)
    have hid : (common.mapBars recasting.bar).firstBar.id = recasting.rename common.firstBar.id := by
      rw [Passage.firstBar, Passage.run_mapBars, NonemptyList.map, recasting.id_bar, Passage.firstBar]
    simp only [Region.mapBars, NonemptyList.length_map, hid, locate_recast hseparates hfirst]
    split_ifs <;> rfl

/-- The first violation among those of the marks and the variations. -/
def markViolation (piece : Structure) : Option Violation :=
  piece.jumpViolation.or (piece.segnoViolation.or (piece.fineViolation.or
    (piece.codaViolation.or piece.variationViolation)))

/-- Where no two bars share an id, the pickup is asked about last and the rest before. -/
theorem firstViolation_eq_or (distinct : piece.ids.Nodup) (rhythm : Option Rhythm) (auftakt : Bool) :
    piece.firstViolation rhythm auftakt =
      piece.markViolation.or (piece.pickupViolation rhythm auftakt) := by
  simp only [firstViolation, markViolation, idViolation_eq_none distinct, List.findSome?_cons, id]
  cases piece.jumpViolation <;> cases piece.segnoViolation <;> cases piece.fineViolation <;>
    cases piece.codaViolation <;> cases piece.variationViolation <;>
    cases piece.pickupViolation rhythm auftakt <;> rfl

/-- The test of the marks and the variations finds the same violation. -/
theorem markViolation_recast (hseparates : recasting.Separates piece.ids) :
    (piece.mapBars recasting.bar).markViolation =
      piece.markViolation.map (·.rename recasting.rename) := by
  simp only [markViolation, jumpViolation_recast, segnoViolation_recast, fineViolation_recast,
    codaViolation_recast, variationViolation_recast hseparates, Option.map_or]

/-- A replay takes the same positions. -/
theorem flatMap_replaySpan_mapBars (f : Bar → Bar) (piece : Structure) :
    (piece.mapBars f).placed.flatMap (fun place ↦ place.2.replaySpan place.1) =
      piece.placed.flatMap fun place ↦ place.2.replaySpan place.1 := by
  simp only [placed_mapBars, List.flatMap_map, Region.replaySpan_mapBars]

end Structure

/-! ### Two scores -/

/-- Lists whose elements are pairwise read alike are read alike. -/
theorem map_eq_map_of_forall₂ {α β γ : Type} {related : α → β → Prop} {f : α → γ} {g : β → γ}
    {items : List α} {others : List β} (h : List.Forall₂ related items others)
    (hread : ∀ item other, related item other → f item = g other) : items.map f = others.map g := by
  have hmapped : List.Forall₂ Eq (items.map f) (others.map g) := List.rel_map hread h
  rwa [List.forall₂_eq_eq_eq] at hmapped

/-- Two entries for the bars at one position of two scores, in the same pass. -/
def SoundsAlike (bars bars' : List Bar) (entry entry' : PlayedBar) : Prop :=
  ∃ (p pass : Nat) (bar bar' : Bar), bars[p]? = some bar ∧ bars'[p]? = some bar' ∧
    entry = ⟨bar.id, pass, p, bar.ticks⟩ ∧ entry' = ⟨bar'.id, pass, p, bar'.ticks⟩

/-- Both scores are performed, and their orders have entries that are alike; or both are refused for
breaking the same rule at the same positions, or both with a number that is too long to be told. -/
inductive Agree (alike : PlayedBar → PlayedBar → Prop) :
    Except PerformanceError PlayingOrder → Except PerformanceError PlayingOrder → Prop
  | played {order order' : PlayingOrder} (entries : List.Forall₂ alike order.entries order'.entries) :
    Agree alike (.ok order) (.ok order')
  | refused {violation violation' : Violation} (rule : violation.rule = violation'.rule)
    (positions : violation.positions = violation'.positions) :
    Agree alike (.error (.refused (.violation violation))) (.error (.refused (.violation violation')))
  | unwritable : Agree alike (.error (.refused .unwritable)) (.error (.refused .unwritable))

/-- Where each bar of one score is related to the bar of the other at its position, entries that are
alike are for related bars. -/
theorem SoundsAlike.exists_related {bars bars' : List Bar} {entry entry' : PlayedBar}
    {related : Bar → Bar → Prop} (h : SoundsAlike bars bars' entry entry')
    (hbars : List.Forall₂ related bars bars') :
    ∃ (p pass : Nat) (bar bar' : Bar), related bar bar' ∧
      entry = ⟨bar.id, pass, p, bar.ticks⟩ ∧ entry' = ⟨bar'.id, pass, p, bar'.ticks⟩ := by
  obtain ⟨p, pass, bar, bar', hbar, hbar', rfl, rfl⟩ := h
  obtain ⟨hlt, rfl⟩ := List.getElem?_eq_some_iff.mp hbar
  obtain ⟨hlt', rfl⟩ := List.getElem?_eq_some_iff.mp hbar'
  exact ⟨p, pass, _, _, hbars.get hlt hlt', rfl, rfl⟩

/-- Refusals that are the same but for the ids they name are for breaking the same rule at the same
positions, or both cannot be told. -/
theorem Agree.of_rename_eq {alike : PlayedBar → PlayedBar → Prop} {refusal refusal' : Refusal}
    {rename rename' : String → String} (h : refusal'.rename rename' = refusal.rename rename) :
    Agree alike (.error (.refused refusal)) (.error (.refused refusal')) := by
  cases refusal with
  | unwritable =>
    cases refusal' with
    | unwritable => exact .unwritable
    | violation => cases h
  | violation violation =>
    cases refusal' with
    | unwritable => cases h
    | violation violation' =>
      have hsame := Refusal.violation.inj h
      refine .refused ?_ ?_
      · rw [← Violation.rule_rename rename, ← hsame, Violation.rule_rename]
      · rw [← Violation.positions_rename rename, ← hsame, Violation.positions_rename]

theorem Agree.mono {alike other : PlayedBar → PlayedBar → Prop}
    {answer answer' : Except PerformanceError PlayingOrder} (h : Agree alike answer answer')
    (himp : ∀ entry entry', alike entry entry' → other entry entry') : Agree other answer answer' := by
  cases h with
  | played entries => exact .played (entries.imp fun {entry entry'} ↦ himp entry entry')
  | refused rule positions => exact .refused rule positions
  | unwritable => exact .unwritable

namespace Structure

/-- The lengths of the pickup and the last bar are to the same effect in two pieces: the test of the
pickup finds the same, and a Da Capo leads to the same bar. -/
structure SamePickup (piece piece' : Structure) (rhythm rhythm' : Option Rhythm)
    (auftakt auftakt' : Bool) : Prop where
  violation : piece.pickupViolation rhythm auftakt = piece'.pickupViolation rhythm' auftakt'
  skips : piece.kind = .daCapo →
    piece.skipsPickup rhythm auftakt = piece'.skipsPickup rhythm' auftakt'

variable {piece piece' : Structure} {rhythm rhythm' : Option Rhythm} {auftakt auftakt' : Bool}

/-- In pieces of one kind and size, pickups and last bars of the same lengths are to the same effect.
-/
theorem samePickup_of_ticks_eq (hkind : piece.kind = piece'.kind) (hsize : piece.size = piece'.size)
    (hfirst : piece.firstBar.ticks = piece'.firstBar.ticks)
    (hlast : piece.lastBar.ticks = piece'.lastBar.ticks) :
    SamePickup piece piece' rhythm rhythm auftakt auftakt where
  violation := by simp only [pickupViolation, hkind, hsize, hfirst, hlast]
  skips := fun _ ↦ by simp only [skipsPickup, hsize, hfirst, hlast]

/-- Scores whose first bars and whose last bars have the same lengths have pickups to the same effect.
-/
theorem samePickup_of_ends {bars bars' : List Bar} {f f' : Bar → Bar}
    (hpiece : ofBars bars = .ok piece) (hpiece' : ofBars bars' = .ok piece')
    (hsame : piece.mapBars f = piece'.mapBars f')
    (hfirst : bars.head?.map Bar.ticks = bars'.head?.map Bar.ticks)
    (hlast : bars.getLast?.map Bar.ticks = bars'.getLast?.map Bar.ticks) :
    SamePickup piece piece' rhythm rhythm auftakt auftakt := by
  obtain ⟨rfl, -⟩ := bars_of_ofBars hpiece
  obtain ⟨rfl, -⟩ := bars_of_ofBars hpiece'
  rw [head?_bars, head?_bars] at hfirst
  rw [getLast?_bars, getLast?_bars] at hlast
  refine samePickup_of_ticks_eq ?_ ?_ (Option.some.inj hfirst) (Option.some.inj hlast)
  · rw [← kind_mapBars f, hsame, kind_mapBars]
  · rw [← size_mapBars f, hsame, size_mapBars]

/-- Scores with the same lengths have pickups to the same effect. -/
theorem samePickup_of_map_ticks_eq {bars bars' : List Bar} {f f' : Bar → Bar}
    (hpiece : ofBars bars = .ok piece) (hpiece' : ofBars bars' = .ok piece')
    (hsame : piece.mapBars f = piece'.mapBars f')
    (hticks : bars.map Bar.ticks = bars'.map Bar.ticks) :
    SamePickup piece piece' rhythm rhythm auftakt auftakt :=
  samePickup_of_ends hpiece hpiece' hsame (by rw [← List.head?_map, hticks, List.head?_map])
    (by rw [← List.getLast?_map, hticks, List.getLast?_map])

/-- Lengths are to no effect without an auftakt. -/
theorem samePickup_of_no_auftakt : SamePickup piece piece' rhythm rhythm' false false where
  violation := by simp [pickupViolation]
  skips := fun _ ↦ by simp [skipsPickup]

/-- Lengths are to no effect without a Da Capo. -/
theorem samePickup_of_kind_ne_daCapo (hkind : piece.kind ≠ .daCapo) (hkind' : piece'.kind ≠ .daCapo) :
    SamePickup piece piece' rhythm rhythm' auftakt auftakt' where
  violation := by simp [pickupViolation, hkind, hkind']
  skips := fun hcapo ↦ absurd hcapo hkind

/-- Two pieces are played alike at the positions that both have. -/
theorem entriesAfter_alike (hsize : piece.size = piece'.size) {positions : List Nat}
    (hbelow : ∀ p ∈ positions, p < piece.size) (earlier : List Nat) :
    List.Forall₂ (SoundsAlike piece.bars piece'.bars) (piece.entriesAfter earlier positions)
      (piece'.entriesAfter earlier positions) := by
  induction positions generalizing earlier with
  | nil => exact .nil
  | cons p rest ih =>
    obtain ⟨hp, hrest⟩ := List.forall_mem_cons.mp hbelow
    have hp' : p < piece'.size := hsize ▸ hp
    have hbar := List.getElem?_eq_getElem hp
    have hbar' := List.getElem?_eq_getElem hp'
    refine .cons ⟨p, earlier.count p + 1, _, _, hbar, hbar', ?_, ?_⟩ (ih hrest _)
    · rw [barAt_eq hbar]
    · rw [barAt_eq hbar']

/-- Two pieces with the same places replay the same positions by the same index. -/
theorem replayed_eq_replayed {f f' : Bar → Bar} (hsame : piece.mapBars f = piece'.mapBars f')
    (distinct : piece.ids.Nodup) (distinct' : piece'.ids.Nodup)
    (hskips : piece.kind = .daCapo →
      piece.skipsPickup rhythm auftakt = piece'.skipsPickup rhythm' auftakt') (index : MarkerIndex) :
    piece.replayed rhythm auftakt index = piece'.replayed rhythm' auftakt' index := by
  have hkind : piece.kind = piece'.kind := by
    rw [← kind_mapBars f, hsame, kind_mapBars]
  have hreplay : piece.replay = piece'.replay := by
    rw [replay_eq_replaySpan distinct, replay_eq_replaySpan distinct',
      ← flatMap_replaySpan_mapBars f, hsame, flatMap_replaySpan_mapBars]
  cases hcase : piece.kind with
  | bare => simp only [replayed, ← hkind, hcase]
  | dalSegno =>
    cases hsegno : index.segno <;>
      simp only [replayed, replayStart, ← hkind, hcase, hreplay, hsegno]
  | daCapo => simp only [replayed, replayStart, ← hkind, hcase, hreplay, hskips hcase]

/-- A score whose structure breaks a rule is refused. -/
theorem perform_eq_error {bars : List Bar} {violation : Violation} (hpiece : ofBars bars = .ok piece)
    (h : piece.firstViolation rhythm auftakt = some violation) :
    perform bars rhythm auftakt = .error (.refused violation.refusal) :=
  perform_eq_refused_iff.mpr (.inr ⟨piece, hpiece, validate_eq_error_iff.mpr ⟨violation, h, rfl⟩⟩)

/-- A score whose structure breaks no rule is played at the positions of the first playing and of the
replay. -/
theorem KeepsRules.perform_eq_ok {bars : List Bar} (hpiece : ofBars bars = .ok piece)
    (hkeeps : piece.KeepsRules rhythm auftakt) :
    ∃ replayed, piece.replayed rhythm auftakt (MarkerIndex.collect piece) = .ok replayed ∧
      (∀ p ∈ piece.sounding ++ replayed, p < piece.size) ∧
      perform bars rhythm auftakt = .ok ⟨piece.entriesAfter [] (piece.sounding ++ replayed)⟩ := by
  obtain ⟨start, replayed, -, hreplayed, -, hmem⟩ := exists_replayed_eq_ok rhythm auftakt hkeeps.ids
    hkeeps.segno_ne_none hkeeps.hasPairedCodas
  refine ⟨replayed, hreplayed, fun p hp ↦ ?_, ?_⟩
  · rcases List.mem_append.mp hp with hp | hp
    · exact lt_size_of_mem_sounding hp
    · exact ((hmem p).mp hp).2.1.lt_size
  · have hvalid := validate_eq_ok_iff.mpr ⟨firstViolation_eq_none_iff.mpr hkeeps, rfl⟩
    unfold perform
    rw [hpiece]
    dsimp only
    rw [hvalid]
    dsimp only
    rw [resolveWith, hreplayed, forward_eq_sounding hkeeps.ids]
    rfl

/-- Two scores whose pieces break no rule, and have the same places and the same marks of navigation, are
played alike if the pickup is left out of the replay of both or of neither. -/
theorem KeepsRules.perform_agrees {recasting recasting' : Recasting} {bars bars' : List Bar}
    (hpiece : ofBars bars = .ok piece) (hpiece' : ofBars bars' = .ok piece')
    (hsame : piece.mapBars recasting.bar = piece'.mapBars recasting'.bar)
    (hkeeps : piece.KeepsRules rhythm auftakt) (hkeeps' : piece'.KeepsRules rhythm' auftakt')
    (hskips : piece.kind = .daCapo →
      piece.skipsPickup rhythm auftakt = piece'.skipsPickup rhythm' auftakt') :
    Agree (SoundsAlike bars bars') (perform bars rhythm auftakt) (perform bars' rhythm' auftakt') := by
  obtain ⟨rfl, distinct⟩ := bars_of_ofBars hpiece
  obtain ⟨rfl, distinct'⟩ := bars_of_ofBars hpiece'
  have hsize : piece.size = piece'.size := by
    rw [← size_mapBars recasting.bar, hsame, size_mapBars]
  have hindex : MarkerIndex.collect piece = MarkerIndex.collect piece' := by
    rw [← collect_recast, hsame, collect_recast]
  have hsounding : piece.sounding = piece'.sounding := by
    rw [← sounding_mapBars recasting.bar, hsame, sounding_mapBars]
  obtain ⟨replayed, hreplayed, hbelow, hperform⟩ := hkeeps.perform_eq_ok hpiece
  obtain ⟨replayed', hreplayed', -, hperform'⟩ := hkeeps'.perform_eq_ok hpiece'
  have hreplays := replayed_eq_replayed hsame distinct distinct' hskips (MarkerIndex.collect piece)
  rw [hreplayed, hindex, hreplayed', Except.ok.injEq] at hreplays
  rw [hperform, hperform', ← hreplays, ← hsounding]
  exact .played (entriesAfter_alike hsize hbelow [])

/-- Two scores whose pieces have the same places, the same marks of navigation and the same pickup are
performed alike, or refused alike. -/
theorem perform_agrees_of_mapBars_eq {recasting recasting' : Recasting} {bars bars' : List Bar}
    (hpiece : ofBars bars = .ok piece) (hpiece' : ofBars bars' = .ok piece')
    (hsame : piece.mapBars recasting.bar = piece'.mapBars recasting'.bar)
    (hseparates : recasting.Separates (bars.map Bar.id))
    (hseparates' : recasting'.Separates (bars'.map Bar.id))
    (hpickup : SamePickup piece piece' rhythm rhythm' auftakt auftakt') :
    Agree (SoundsAlike bars bars') (perform bars rhythm auftakt) (perform bars' rhythm' auftakt') := by
  obtain ⟨rfl, distinct⟩ := bars_of_ofBars hpiece
  obtain ⟨rfl, distinct'⟩ := bars_of_ofBars hpiece'
  have hmark : piece.markViolation.map (·.rename recasting.rename) =
      piece'.markViolation.map (·.rename recasting'.rename) := by
    rw [← markViolation_recast hseparates, hsame, markViolation_recast hseparates']
  have hfirst := firstViolation_eq_or distinct rhythm auftakt
  have hfirst' := firstViolation_eq_or distinct' rhythm' auftakt'
  cases hone : piece.markViolation with
  | some violation =>
    rw [hone, Option.map_some, eq_comm, Option.map_eq_some_iff] at hmark
    obtain ⟨violation', hother, hrenamed⟩ := hmark
    rw [perform_eq_error hpiece (by rw [hfirst, hone, Option.some_or]),
      perform_eq_error hpiece' (by rw [hfirst', hother, Option.some_or])]
    have hrefusals : violation'.refusal.rename recasting'.rename =
        violation.refusal.rename recasting.rename := by
      rw [Violation.rename_refusal, Violation.rename_refusal, hrenamed]
    exact .of_rename_eq hrefusals
  | none =>
    rw [hone, Option.map_none, eq_comm, Option.map_eq_none_iff] at hmark
    rw [hone, Option.none_or] at hfirst
    rw [hmark, Option.none_or, ← hpickup.violation, ← hfirst] at hfirst'
    cases hpick : piece.firstViolation rhythm auftakt with
    | some violation =>
      rw [perform_eq_error hpiece hpick, perform_eq_error hpiece' (hfirst'.trans hpick)]
      exact .of_rename_eq (rfl : violation.refusal.rename id = violation.refusal.rename id)
    | none =>
      exact KeepsRules.perform_agrees hpiece hpiece' hsame (firstViolation_eq_none_iff.mp hpick)
        (firstViolation_eq_none_iff.mp (hfirst'.trans hpick)) hpickup.skips

end Structure

/-- Two scores that become one by recasting are performed alike, or refused alike, if the pickup of
their pieces is to the same effect. -/
theorem perform_agrees {recasting recasting' : Recasting} {bars bars' : List Bar}
    {rhythm rhythm' : Option Rhythm} {auftakt auftakt' : Bool}
    (hkeeps : recasting.KeepsRepeats) (hkeeps' : recasting'.KeepsRepeats)
    (hsame : bars.map recasting.bar = bars'.map recasting'.bar)
    (hseparates : recasting.Separates (bars.map Bar.id))
    (hseparates' : recasting'.Separates (bars'.map Bar.id))
    (hpickup : ∀ piece piece', Structure.ofBars bars = .ok piece →
      Structure.ofBars bars' = .ok piece' →
      piece.mapBars recasting.bar = piece'.mapBars recasting'.bar →
      Structure.SamePickup piece piece' rhythm rhythm' auftakt auftakt') :
    Agree (SoundsAlike bars bars') (perform bars rhythm auftakt) (perform bars' rhythm' auftakt') := by
  have hgroup := Structure.ofBars_map_bar hkeeps hseparates
  rw [hsame, Structure.ofBars_map_bar hkeeps' hseparates'] at hgroup
  cases hpiece : Structure.ofBars bars with
  | error refusal =>
    cases hpiece' : Structure.ofBars bars' with
    | error refusal' =>
      rw [hpiece, hpiece'] at hgroup
      have hrenamed : refusal'.rename recasting'.rename = refusal.rename recasting.rename :=
        Except.error.inj hgroup
      simp only [perform, hpiece, hpiece']
      exact .of_rename_eq hrenamed
    | ok piece' =>
      rw [hpiece, hpiece'] at hgroup
      cases hgroup
  | ok piece =>
    cases hpiece' : Structure.ofBars bars' with
    | error refusal' =>
      rw [hpiece, hpiece'] at hgroup
      cases hgroup
    | ok piece' =>
      rw [hpiece, hpiece'] at hgroup
      have hmapped := (Except.ok.inj hgroup).symm
      exact Structure.perform_agrees_of_mapBars_eq hpiece hpiece' hmapped hseparates hseparates'
        (hpickup piece piece' hpiece hpiece' hmapped)

end ScoreRepeats
