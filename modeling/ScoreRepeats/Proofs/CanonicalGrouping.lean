import Mathlib.Data.List.Nodup
import ScoreRepeats.Proofs.CanonicalRegions
import ScoreRepeats.Proofs.PlainBars

/-!
# Grouping undoes writing out

A grouping holds one more thing than its regions: whether the latest of them is still open. A tidy
grouping (`Grouping.IsTidy`) has regions that are canonical, up to a repeat that has not ended, and
keeps the latest of them open unless it is a repeat.

A taken bar opens a region or lengthens the latest one (`Grouping.Takes.opens_or_lengthens`), and it
leaves a tidy grouping tidy (`Grouping.Takes.isTidy`). The other way round, every tidy grouping with
bars comes from a smaller one by its last bar (`Grouping.IsTidy.exists_takes`). Hence the groupings
that bars lead to are the tidy ones that hold these bars (`Grouping.foldlM_add_start_eq_ok_iff`), and
a score has a structure just if canonical regions hold its bars
(`Structure.ofBars_eq_ok_iff_exists_isCanonical`).
-/

set_option autoImplicit false
set_option relaxedAutoImplicit false

namespace ScoreRepeats

/-- The kind that the first bar with a jump instruction gives. -/
def Kind.ofBars (bars : List Bar) : Kind :=
  match bars.find? Bar.hasJump with
  | none => .bare
  | some bar => if bar.has .dalSegno then .dalSegno else .daCapo

/-- The number of bars in a list of regions. -/
def barCount (regions : List Region) : Nat := (regions.flatMap Region.bars).length

/-- An open region that can still become canonical: an open run, with its mark and the number of bars
before it remembered, or a canonical region with variations. -/
def Pending.Fits (pending : Pending) (before : Nat) : Prop :=
  match pending with
  | .nothing => True
  | .run bars marked start =>
    bars.IsOpen ∧ marked = bars.head.has .repeatStart ∧ start = before
  | .variations common earlier current =>
    common.IsShared ∧ IsNumberedFromOne (earlier ++ [current])

/-- Regions have as many bars from last to first. -/
theorem length_flatMap_bars_reverse (regions : List Region) :
    (regions.reverse.flatMap Region.bars).length = barCount regions := by
  rw [barCount, List.length_flatMap, List.length_flatMap, List.map_reverse, List.sum_reverse]

namespace Grouping

/-- How the open region and the closed ones, the latest first, go together. -/
structure IsTidy (closed : List Region) (pending : Pending) : Prop where
  each : ∀ region ∈ closed, region.IsCanonical
  joined : (pending.onTop closed).IsChain fun later earlier ↦ earlier.Precedes later
  fits : pending.Fits (barCount closed)
  ended : pending = .nothing → ∀ region ∈ closed.head?, ∃ run, region = .plain (.repeated run)

variable {bar : Bar} {position : Nat} {closed closed' : List Region} {pending pending' : Pending}

/-- A repeat on top of the closed regions is the latest of them. -/
theorem exists_repeated_of_mem_head? (run : BarRun) (rest : List Region) :
    ∀ region ∈ (Region.plain (.repeated run) :: rest).head?,
      ∃ other, region = .plain (.repeated other) := by
  rintro region ⟨⟩
  exact ⟨run, rfl⟩

/-- Where nothing is closed or open, all is tidy. -/
theorem isTidy_nil : IsTidy [] .nothing where
  each := by simp
  joined := by simp [Pending.onTop, Pending.region?]
  fits := trivial
  ended := by simp

/-- Whether regions may stand below the latest one depends only on its first bar. -/
theorem isChain_cons_of_firstBar_eq {first second : Region} {rest : List Region}
    (hjoined : (first :: rest).IsChain fun later earlier ↦ earlier.Precedes later)
    (hfirst : second.firstBar = first.firstBar) :
    (second :: rest).IsChain fun later earlier ↦ earlier.Precedes later := by
  rw [List.isChain_cons] at hjoined ⊢
  refine ⟨fun earlier hearlier hstraight ↦ ?_, hjoined.2⟩
  rw [hfirst]
  exact hjoined.1 earlier hearlier hstraight

/-! ### A taken bar keeps a grouping tidy -/

/-- A taken bar opens a region above the others or lengthens the latest one. -/
theorem Takes.opens_or_lengthens (h : Takes bar position closed pending closed' pending') :
    (pending.LeavesRoomFor bar ∧ ∃ region : Region, region.bars = [bar] ∧
      pending'.onTop closed' = region :: pending.onTop closed) ∨
    ∃ (old region : Region) (rest : List Region), region.bars = old.bars ++ [bar] ∧
      pending.onTop closed = old :: rest ∧ pending'.onTop closed' = region :: rest := by
  cases h with
  | opens _ room => exact .inl ⟨room, _, rfl, rfl⟩
  | opensAndCloses _ room => exact .inl ⟨room, _, rfl, rfl⟩
  | lengthens =>
    refine .inr ⟨_, _, _, ?_, rfl, rfl⟩
    exact NonemptyList.toList_push _ _
  | lengthensAndCloses =>
    refine .inr ⟨_, _, _, ?_, rfl, rfl⟩
    exact NonemptyList.toList_push _ _
  | beginsAfterRun => exact .inr ⟨_, _, _, rfl, rfl, rfl⟩
  | beginsAfterRepeat => exact .inr ⟨_, _, _, rfl, rfl, rfl⟩
  | grows =>
    refine .inr ⟨_, _, _, ?_, rfl, rfl⟩
    simp [Region.bars, List.append_assoc]
  | advances =>
    refine .inr ⟨_, _, _, ?_, rfl, rfl⟩
    simp only [Region.bars, NonemptyList.toList_snoc, List.flatMap_append, List.flatMap_singleton,
      List.append_assoc]
    rfl

/-- A taken bar stands behind the bars that were there. -/
theorem Takes.flatMap_bars (h : Takes bar position closed pending closed' pending') :
    (pending'.onTop closed').reverse.flatMap Region.bars =
      (pending.onTop closed).reverse.flatMap Region.bars ++ [bar] := by
  rcases h.opens_or_lengthens with
    ⟨-, region, hbars, hnext⟩ | ⟨old, region, rest, hbars, hbefore, hnext⟩
  · simp [hnext, hbars]
  · simp [hnext, hbefore, hbars]

/-- After a taken bar each region may still stand before the next. -/
theorem Takes.joined (h : Takes bar position closed pending closed' pending')
    (tidy : IsTidy closed pending) :
    (pending'.onTop closed').IsChain fun later earlier ↦ earlier.Precedes later := by
  have hjoined := tidy.joined
  rcases h.opens_or_lengthens with
    ⟨room, region, hbars, hnext⟩ | ⟨old, region, rest, hbars, hbefore, hnext⟩
  · rw [hnext, List.isChain_cons]
    refine ⟨?_, hjoined⟩
    -- Only below an open run does a straight region lie, and there the bar starts a repeat.
    rintro earlier hearlier ⟨run, rfl⟩
    have hfirst : region.firstBar = bar :=
      Option.some.inj (region.head?_bars.symm.trans (by rw [hbars]; rfl))
    rw [hfirst]
    cases pending with
    | nothing =>
      obtain ⟨other, hother⟩ := tidy.ended rfl _ hearlier
      cases hother
    | run other marked start => exact room.1
    | variations common before current => cases hearlier
  · rw [hbefore] at hjoined
    rw [hnext]
    exact isChain_cons_of_firstBar_eq hjoined (Region.firstBar_eq_of_bars_append hbars)

/-- Unless a repeat is open, all regions of a tidy grouping are canonical. -/
theorem IsTidy.each_onTop (tidy : IsTidy closed pending) (hunmarked : ¬ pending.IsMarked) :
    ∀ region ∈ pending.onTop closed, region.IsCanonical := by
  intro region hregion
  cases pending with
  | nothing => exact tidy.each region hregion
  | run run marked start =>
    obtain ⟨hopen, hmarked, -⟩ := tidy.fits
    rcases List.mem_cons.mp hregion with rfl | hclosed
    · refine BarRun.isUnmarked_iff.mpr ⟨hopen, hmarked.symm.trans ?_⟩
      cases marked with
      | false => rfl
      | true => exact absurd ⟨run, start, rfl⟩ hunmarked
    · exact tidy.each region hclosed
  | variations common earlier current =>
    obtain ⟨hshared, hnumbered⟩ := tidy.fits
    rcases List.mem_cons.mp hregion with rfl | hclosed
    · exact ⟨hshared, by rwa [NonemptyList.toList_snoc]⟩
    · exact tidy.each region hclosed

/-- A bar that is taken behind the others keeps a grouping tidy. -/
theorem Takes.isTidy
    (h : Takes bar (barCount (pending.onTop closed)) closed pending closed' pending')
    (tidy : IsTidy closed pending) : IsTidy closed' pending' := by
  have hjoined := h.joined tidy
  have heach := tidy.each
  have hfits := tidy.fits
  cases h with
  | opens unnumbered room unended =>
    exact ⟨tidy.each_onTop room.not_isMarked, hjoined,
      ⟨BarRun.isOpen_singleton_iff.mpr ⟨unnumbered, unended⟩, rfl, rfl⟩, nofun⟩
  | opensAndCloses unnumbered room ended =>
    refine ⟨List.forall_mem_cons.mpr ⟨?_, tidy.each_onTop room.not_isMarked⟩, hjoined, trivial,
      fun _ ↦ exists_repeated_of_mem_head? _ _⟩
    exact BarRun.isRepeat_singleton_iff.mpr ⟨unnumbered, ended⟩
  | lengthens unnumbered unstarted unended =>
    obtain ⟨hopen, hmarked, hstart⟩ := hfits
    exact ⟨heach, hjoined,
      ⟨BarRun.isOpen_push_iff.mpr ⟨hopen, unnumbered, unended, unstarted⟩, hmarked, hstart⟩, nofun⟩
  | lengthensAndCloses unnumbered unstarted ended =>
    refine ⟨List.forall_mem_cons.mpr ⟨?_, heach⟩, hjoined, trivial,
      fun _ ↦ exists_repeated_of_mem_head? _ _⟩
    exact BarRun.isRepeat_push_iff.mpr ⟨hfits.1, unnumbered, ended, unstarted⟩
  | beginsAfterRun numbered =>
    refine ⟨heach, hjoined, ⟨hfits.1, ?_⟩, nofun⟩
    exact isNumberedFromOne_singleton_iff.mpr numbered
  | beginsAfterRepeat numbered =>
    rw [List.forall_mem_cons] at heach
    refine ⟨heach.2, hjoined, ⟨heach.1, ?_⟩, nofun⟩
    exact isNumberedFromOne_singleton_iff.mpr numbered
  | grows numbered =>
    obtain ⟨hshared, hnumbered⟩ := hfits
    rw [isNumberedFromOne_concat_iff] at hnumbered
    refine ⟨heach, hjoined, ⟨hshared, isNumberedFromOne_concat_iff.mpr ⟨hnumbered.1, ?_⟩⟩, nofun⟩
    exact BarRun.isNumbered_push_iff.mpr ⟨hnumbered.2, numbered⟩
  | advances numbered =>
    obtain ⟨hshared, hnumbered⟩ := hfits
    refine ⟨heach, hjoined, ⟨hshared, isNumberedFromOne_concat_iff.mpr ⟨hnumbered, ?_⟩⟩, nofun⟩
    rw [List.length_append]
    exact BarRun.isNumbered_singleton_iff.mpr numbered

/-! ### Every tidy grouping comes about -/

/-- Canonical regions, the latest first, are held by a tidy grouping with no repeat open. -/
theorem exists_isTidy {regions : List Region} (heach : ∀ region ∈ regions, region.IsCanonical)
    (hjoined : regions.IsChain fun later earlier ↦ earlier.Precedes later) :
    ∃ closed pending, IsTidy closed pending ∧ pending.onTop closed = regions ∧
      ¬ pending.IsMarked := by
  cases regions with
  | nil => exact ⟨[], .nothing, isTidy_nil, rfl, by simp [Pending.IsMarked]⟩
  | cons latest rest =>
    rw [List.forall_mem_cons] at heach
    cases latest with
    | plain passage =>
      cases passage with
      | straight run =>
        obtain ⟨hopen, hhead⟩ := BarRun.isUnmarked_iff.mp heach.1
        exact ⟨rest, .run run false (barCount rest),
          ⟨heach.2, hjoined, ⟨hopen, hhead.symm, rfl⟩, by simp⟩, rfl, by simp [Pending.IsMarked]⟩
      | repeated run =>
        exact ⟨.plain (.repeated run) :: rest, .nothing,
          ⟨List.forall_mem_cons.mpr heach, hjoined, trivial,
            fun _ ↦ exists_repeated_of_mem_head? run rest⟩, rfl, by simp [Pending.IsMarked]⟩
    | varied common variations =>
      obtain ⟨hshared, hnumbered⟩ := heach.1
      rw [← variations.init_append_last] at hnumbered
      have htop : (Pending.variations common variations.init variations.last).onTop rest =
          .varied common variations :: rest := by
        simp [Pending.onTop, Pending.region?]
      exact ⟨rest, .variations common variations.init variations.last,
        ⟨heach.2, by rwa [htop], ⟨hshared, hnumbered⟩, by simp⟩, htop, by simp [Pending.IsMarked]⟩

/-- Below a tidy open region lies a tidy grouping in which a bar can be taken that opens it. -/
theorem exists_isTidy_leavesRoomFor {region : Region}
    (heach : ∀ other ∈ closed, other.IsCanonical)
    (hjoined : (region :: closed).IsChain fun later earlier ↦ earlier.Precedes later)
    (hfirst : region.firstBar = bar) :
    ∃ closed' pending', IsTidy closed' pending' ∧ pending'.onTop closed' = closed ∧
      pending'.LeavesRoomFor bar := by
  rw [List.isChain_cons] at hjoined
  obtain ⟨closed', pending', tidy, htop, hunmarked⟩ := exists_isTidy heach hjoined.2
  refine ⟨closed', pending', tidy, htop, ?_⟩
  cases pending' with
  | nothing => exact trivial
  | variations common earlier current => exact trivial
  | run run marked start =>
    have hlatest : Region.plain (.straight run) ∈ closed.head? := by
      rw [← htop]
      rfl
    have hstarted := hjoined.1 _ hlatest ⟨run, rfl⟩
    rw [hfirst] at hstarted
    refine ⟨hstarted, ?_⟩
    cases marked with
    | false => rfl
    | true => exact absurd ⟨run, start, rfl⟩ hunmarked

/-- A grouping whose latest region is a repeat comes from a smaller one by the bar that ended it. -/
theorem exists_takes_of_repeat {run : BarRun} {rest : List Region}
    (tidy : IsTidy (.plain (.repeated run) :: rest) .nothing) :
    ∃ bar closed' pending', IsTidy closed' pending' ∧
      Takes bar (barCount (pending'.onTop closed')) closed' pending'
        (.plain (.repeated run) :: rest) .nothing := by
  obtain ⟨hrepeat, heach⟩ := List.forall_mem_cons.mp tidy.each
  rcases run.eq_singleton_or_push with ⟨bar, rfl⟩ | ⟨earlier, bar, rfl⟩
  · obtain ⟨unnumbered, ended⟩ := BarRun.isRepeat_singleton_iff.mp hrepeat
    obtain ⟨closed', pending', tidy', rfl, room⟩ :=
      exists_isTidy_leavesRoomFor heach tidy.joined rfl
    exact ⟨bar, closed', pending', tidy', .opensAndCloses unnumbered room ended⟩
  · obtain ⟨hopen, unnumbered, ended, unstarted⟩ := BarRun.isRepeat_push_iff.mp hrepeat
    exact ⟨bar, rest, .run earlier (earlier.head.has .repeatStart) (barCount rest),
      ⟨heach, isChain_cons_of_firstBar_eq tidy.joined rfl, ⟨hopen, rfl, rfl⟩, nofun⟩,
      .lengthensAndCloses unnumbered unstarted ended⟩

/-- A grouping with an open run comes from a smaller one by the last bar of the run. -/
theorem exists_takes_of_run {run : BarRun} {marked : Bool} {start : Nat}
    (tidy : IsTidy closed (.run run marked start)) :
    ∃ bar closed' pending', IsTidy closed' pending' ∧
      Takes bar (barCount (pending'.onTop closed')) closed' pending' closed
        (.run run marked start) := by
  obtain ⟨hopen, rfl, rfl⟩ := tidy.fits
  rcases run.eq_singleton_or_push with ⟨bar, rfl⟩ | ⟨earlier, bar, rfl⟩
  · obtain ⟨unnumbered, unended⟩ := BarRun.isOpen_singleton_iff.mp hopen
    obtain ⟨closed', pending', tidy', rfl, room⟩ :=
      exists_isTidy_leavesRoomFor tidy.each tidy.joined rfl
    exact ⟨bar, closed', pending', tidy', .opens unnumbered room unended⟩
  · obtain ⟨hopen, unnumbered, unended, unstarted⟩ := BarRun.isOpen_push_iff.mp hopen
    exact ⟨bar, closed, .run earlier (earlier.head.has .repeatStart) (barCount closed),
      ⟨tidy.each, isChain_cons_of_firstBar_eq tidy.joined rfl, ⟨hopen, rfl, rfl⟩, nofun⟩,
      .lengthens unnumbered unstarted unended⟩

/-- Variations begin after a tidy grouping that holds what they share. -/
theorem exists_takes_of_first {common : Passage} {bar : Bar}
    (tidy : IsTidy closed (.variations common [] ⟨bar, []⟩)) (numbered : bar.variation = some 1) :
    ∃ closed' pending', IsTidy closed' pending' ∧
      Takes bar (barCount (pending'.onTop closed')) closed' pending' closed
        (.variations common [] ⟨bar, []⟩) := by
  have hshared := tidy.fits.1
  cases common with
  | straight run =>
    exact ⟨closed, .run run (run.head.has .repeatStart) (barCount closed),
      ⟨tidy.each, isChain_cons_of_firstBar_eq tidy.joined rfl, ⟨hshared, rfl, rfl⟩, nofun⟩,
      .beginsAfterRun numbered⟩
  | repeated run =>
    have hended := exists_repeated_of_mem_head? run closed
    exact ⟨.plain (.repeated run) :: closed, .nothing,
      ⟨List.forall_mem_cons.mpr ⟨hshared, tidy.each⟩, isChain_cons_of_firstBar_eq tidy.joined rfl,
        trivial, fun _ ↦ hended⟩, .beginsAfterRepeat numbered⟩

/-- A grouping with open variations comes from a smaller one by the last bar of the last variation. -/
theorem exists_takes_of_variations {common : Passage} {earlier : List BarRun} {current : BarRun}
    (tidy : IsTidy closed (.variations common earlier current)) :
    ∃ bar closed' pending', IsTidy closed' pending' ∧
      Takes bar (barCount (pending'.onTop closed')) closed' pending' closed
        (.variations common earlier current) := by
  obtain ⟨hshared, hnumbered⟩ := tidy.fits
  obtain ⟨hearlier, hcurrent⟩ := isNumberedFromOne_concat_iff.mp hnumbered
  rcases current.eq_singleton_or_push with ⟨bar, rfl⟩ | ⟨current, bar, rfl⟩
  · have numbered := BarRun.isNumbered_singleton_iff.mp hcurrent
    rcases List.eq_nil_or_concat' earlier with rfl | ⟨before, previous, rfl⟩
    · exact ⟨bar, exists_takes_of_first tidy numbered⟩
    · rw [List.length_append] at numbered
      exact ⟨bar, closed, .variations common before previous,
        ⟨tidy.each, isChain_cons_of_firstBar_eq tidy.joined rfl, ⟨hshared, hearlier⟩, nofun⟩,
        .advances numbered⟩
  · obtain ⟨hcurrent, numbered⟩ := BarRun.isNumbered_push_iff.mp hcurrent
    exact ⟨bar, closed, .variations common earlier current,
      ⟨tidy.each, isChain_cons_of_firstBar_eq tidy.joined rfl,
        ⟨hshared, isNumberedFromOne_concat_iff.mpr ⟨hearlier, hcurrent⟩⟩, nofun⟩,
      .grows numbered⟩

/-- A tidy grouping with bars comes from a smaller one by its last bar. -/
theorem IsTidy.exists_takes (tidy : IsTidy closed pending) (hne : pending.onTop closed ≠ []) :
    ∃ bar closed' pending', IsTidy closed' pending' ∧
      Takes bar (barCount (pending'.onTop closed')) closed' pending' closed pending := by
  cases pending with
  | nothing =>
    obtain ⟨latest, rest, rfl⟩ := List.exists_cons_of_ne_nil hne
    obtain ⟨run, rfl⟩ := tidy.ended rfl latest rfl
    exact exists_takes_of_repeat tidy
  | run run marked start => exact exists_takes_of_run tidy
  | variations common earlier current => exact exists_takes_of_variations tidy

/-! ### What bars lead to -/

/-- One more bar gives the kind that the grouping takes on with it. -/
theorem kind_ofBars_concat (bars : List Bar) (bar : Bar) :
    Kind.ofBars (bars ++ [bar]) = kindWith (Kind.ofBars bars) bar := by
  unfold Kind.ofBars
  rw [List.find?_append]
  cases hfirst : bars.find? Bar.hasJump with
  | some jump =>
    rw [Option.some_or]
    cases hsegno : jump.has .dalSegno <;> simp [kindWith, hsegno]
  | none =>
    rw [Option.none_or, List.find?_singleton]
    by_cases hjump : bar.hasJump = true
    · rw [if_pos hjump]
      rw [Bar.hasJump_iff] at hjump
      cases hsegno : bar.has .dalSegno with
      | true => simp [kindWith, hsegno]
      | false =>
        rw [hsegno] at hjump
        simp [kindWith, hsegno, hjump.resolve_right (by simp)]
    · rw [if_neg hjump]
      rw [Bar.hasJump_iff, not_or] at hjump
      simp [kindWith, hjump.1, hjump.2]

/-- Regions without bars are no regions. -/
theorem eq_nil_of_flatMap_bars_eq_nil
    (hbars : (pending.onTop closed).reverse.flatMap Region.bars = []) :
    closed = [] ∧ pending = .nothing := by
  have hempty : pending.onTop closed = [] := by
    rw [List.flatMap_eq_nil_iff] at hbars
    refine List.eq_nil_iff_forall_not_mem.mpr fun region hregion ↦ ?_
    exact region.bars_ne_nil (hbars region (List.mem_reverse.mpr hregion))
  cases pending with
  | nothing => exact ⟨hempty, rfl⟩
  | run run marked start => cases hempty
  | variations common earlier current => cases hempty

/-- A grouping is tidy, has regions with these bars, whose ids all differ, remembers the ids, and is of
their kind. -/
structure Holds (state : Grouping) (bars : List Bar) : Prop where
  tidy : IsTidy state.closed state.pending
  written : state.regions.flatMap Region.bars = bars
  distinct : (bars.map Bar.id).Nodup
  offered : state.offered = bars.map Bar.id
  kind : state.kind = Kind.ofBars bars

variable {bars : List Bar} {state next : Grouping}

/-- Without bars nothing is held but what there is at the start. -/
theorem holds_nil_iff : Holds state [] ↔ state = start := by
  constructor
  · rintro ⟨-, hwritten, -, hoffered, hkind⟩
    obtain ⟨offered, closed, pending, kind⟩ := state
    obtain ⟨rfl, rfl⟩ := eq_nil_of_flatMap_bars_eq_nil hwritten
    obtain rfl : offered = [] := hoffered
    obtain rfl : kind = .bare := hkind
    rfl
  · rintro rfl
    exact ⟨isTidy_nil, rfl, List.nodup_nil, rfl, rfl⟩

/-- The ids of bars and one more differ if the last is new among them. -/
theorem nodup_ids_concat_iff : ((bars ++ [bar]).map Bar.id).Nodup ↔
    bar.id ∉ bars.map Bar.id ∧ (bars.map Bar.id).Nodup := by
  rw [List.map_append, List.map_singleton, List.nodup_append_comm, List.singleton_append,
    List.nodup_cons]

/-- A grouping that accepts a bar holds it behind the others. -/
theorem Holds.add (hholds : Holds state bars) (hadd : state.add bar = .ok next) :
    Holds next (bars ++ [bar]) := by
  obtain ⟨tidy, hwritten, hdistinct, hoffered, hkind⟩ := hholds
  obtain ⟨hnew, closed, pending, htakes, rfl⟩ := add_eq_ok_iff.mp hadd
  have hposition : state.offered.length = barCount (state.pending.onTop state.closed) := by
    rw [hoffered, List.length_map, ← hwritten, regions, length_flatMap_bars_reverse]
  rw [hposition] at htakes
  rw [hoffered] at hnew
  refine ⟨htakes.isTidy tidy, ?_, nodup_ids_concat_iff.mpr ⟨hnew, hdistinct⟩, ?_, ?_⟩
  · rw [← hwritten]
    exact htakes.flatMap_bars
  · rw [hoffered, List.map_append, List.map_singleton]
  · rw [kind_ofBars_concat, hkind]

/-- A grouping that holds a bar behind others has accepted it. -/
theorem Holds.exists_add_eq_ok (hholds : Holds next (bars ++ [bar])) :
    ∃ state, Holds state bars ∧ state.add bar = .ok next := by
  obtain ⟨tidy, hwritten, hdistinct, hoffered, hkind⟩ := hholds
  rw [nodup_ids_concat_iff] at hdistinct
  rw [List.map_append, List.map_singleton] at hoffered
  rw [kind_ofBars_concat] at hkind
  have hne : next.pending.onTop next.closed ≠ [] := by
    intro hnil
    simp [regions, hnil] at hwritten
  obtain ⟨other, closed, pending, tidy', htakes⟩ := tidy.exists_takes hne
  -- The bar by which the grouping came about is the last of its bars.
  have hsplit := htakes.flatMap_bars.symm.trans hwritten
  obtain ⟨hearlier, hother⟩ := List.append_inj' hsplit rfl
  obtain rfl : other = bar := List.singleton_inj.mp hother
  have hposition : (bars.map Bar.id).length = barCount (pending.onTop closed) := by
    rw [List.length_map, ← hearlier, length_flatMap_bars_reverse]
  rw [← hposition] at htakes
  refine ⟨⟨bars.map Bar.id, closed, pending, Kind.ofBars bars⟩,
    ⟨tidy', hearlier, hdistinct.2, rfl, rfl⟩,
    add_eq_ok_iff.mpr ⟨hdistinct.1, next.closed, next.pending, htakes, ?_⟩⟩
  rw [← hoffered, ← hkind]

/-- The groupings that bars lead to are those that hold them. -/
theorem foldlM_add_start_eq_ok_iff : bars.foldlM add start = .ok state ↔ Holds state bars := by
  induction bars using List.reverseRecOn generalizing state with
  | nil =>
    rw [holds_nil_iff]
    exact ⟨fun h ↦ (Except.ok.inj h).symm, fun h ↦ congrArg Except.ok h.symm⟩
  | append_singleton bars bar ih =>
    rw [foldlM_concat_eq_ok_iff]
    constructor
    · rintro ⟨middle, hmiddle, hadd⟩
      exact (ih.mp hmiddle).add hadd
    · intro hholds
      obtain ⟨middle, hmiddle, hadd⟩ := hholds.exists_add_eq_ok
      exact ⟨middle, ih.mpr hmiddle, hadd⟩

end Grouping

/-! ### Whole scores -/

namespace Structure

variable {bars : List Bar} {piece : Structure}

/-- Bars have a structure just if their ids all differ and canonical regions hold them. -/
theorem ofBars_eq_ok_iff_exists_isCanonical : ofBars bars = .ok piece ↔
    (bars.map Bar.id).Nodup ∧ ∃ regions : NonemptyList Region, IsCanonical regions.toList ∧
      regions.toList.flatMap Region.bars = bars ∧ piece = ofRegions regions (Kind.ofBars bars) := by
  rw [Grouping.ofBars_eq_ok_iff]
  constructor
  · rintro ⟨last, hlast, hunmarked, regions, hregions, rfl⟩
    obtain ⟨tidy, hbars, hnodup, -, hkind⟩ := Grouping.foldlM_add_start_eq_ok_iff.mp hlast
    refine ⟨hnodup, regions, ⟨?_, ?_⟩, by rw [hregions, hbars], by rw [hkind]⟩
    · intro region hregion
      rw [hregions, Grouping.regions, List.mem_reverse] at hregion
      exact tidy.each_onTop hunmarked region hregion
    · rw [hregions, Grouping.regions, List.isChain_reverse]
      exact tidy.joined
  · rintro ⟨hnodup, regions, ⟨heach, hjoined⟩, hbars, rfl⟩
    have hjoined' : regions.toList.reverse.IsChain fun later earlier ↦ earlier.Precedes later := by
      rw [List.isChain_reverse]
      exact hjoined
    obtain ⟨closed, pending, tidy, htop, hunmarked⟩ := Grouping.exists_isTidy
      (fun region hregion ↦ heach region (List.mem_reverse.mp hregion)) hjoined'
    have hregions : (pending.onTop closed).reverse = regions.toList := by
      rw [htop, List.reverse_reverse]
    refine ⟨⟨bars.map Bar.id, closed, pending, Kind.ofBars bars⟩,
      Grouping.foldlM_add_start_eq_ok_iff.mpr ⟨tidy, ?_, hnodup, rfl, rfl⟩, hunmarked, regions,
      hregions.symm, rfl⟩
    rw [Grouping.regions, hregions, hbars]

/-- The bars of a score that has a structure are those of the structure, and their ids all differ. -/
theorem bars_of_ofBars (h : ofBars bars = .ok piece) : piece.bars = bars ∧ piece.ids.Nodup := by
  obtain ⟨hnodup, regions, -, hbars, rfl⟩ := ofBars_eq_ok_iff_exists_isCanonical.mp h
  have hwritten : (ofRegions regions (Kind.ofBars bars)).bars = bars := by
    rw [Structure.bars, regions_ofRegions, hbars]
  exact ⟨hwritten, by rwa [ids, hwritten]⟩

/-- Grouping undoes writing out, and the other way round. The regions of a score that is accepted are
canonical and hold its bars unchanged; and bars of their own ids, written out from canonical regions,
are grouped into just these regions. The kind is that of the first jump instruction. -/
theorem ofBars_flatMap_bars :
    (∀ (bars : List Bar) (piece : Structure), ofBars bars = .ok piece →
      IsCanonical piece.regions.toList ∧ piece.regions.toList.flatMap Region.bars = bars ∧
        piece.bars = bars ∧ piece.kind = Kind.ofBars bars) ∧
    ∀ regions : NonemptyList Region, IsCanonical regions.toList →
      ((regions.toList.flatMap Region.bars).map Bar.id).Nodup →
      ofBars (regions.toList.flatMap Region.bars) =
        .ok (ofRegions regions (Kind.ofBars (regions.toList.flatMap Region.bars))) := by
  constructor
  · intro bars piece h
    obtain ⟨-, regions, hcanonical, hbars, rfl⟩ := ofBars_eq_ok_iff_exists_isCanonical.mp h
    rw [Structure.bars, regions_ofRegions]
    exact ⟨hcanonical, hbars, hbars, rfl⟩
  · intro regions hcanonical hnodup
    exact ofBars_eq_ok_iff_exists_isCanonical.mpr ⟨hnodup, regions, hcanonical, rfl, rfl⟩

/-- A repeat of one bar, with two endings of one bar each. -/
def regionsWithEndings : NonemptyList Region :=
  ⟨.varied (.repeated ⟨endingBar "A", []⟩)
    ⟨⟨variationBar "B" 1 (by decide), []⟩, [⟨variationBar "C" 2 (by decide), []⟩]⟩, []⟩

/-- The regions with endings are canonical, and grouping finds them in their three bars. -/
theorem ofBars_regionsWithEndings :
    IsCanonical regionsWithEndings.toList ∧
      ofBars (regionsWithEndings.toList.flatMap Region.bars) =
        .ok (ofRegions regionsWithEndings .bare) := by
  have hshared : BarRun.IsRepeat ⟨endingBar "A", []⟩ :=
    BarRun.isRepeat_singleton_iff.mpr ⟨rfl, rfl⟩
  have hfirst : IsNumberedFromOne [⟨variationBar "B" 1 (by decide), []⟩] :=
    isNumberedFromOne_singleton_iff.mpr rfl
  have hsecond : BarRun.IsNumbered ⟨variationBar "C" 2 (by decide), []⟩ 2 :=
    BarRun.isNumbered_singleton_iff.mpr rfl
  have hcanonical : IsCanonical regionsWithEndings.toList := by
    refine ⟨List.forall_mem_singleton.mpr ⟨hshared, ?_⟩, List.isChain_singleton _⟩
    exact isNumberedFromOne_concat_iff.mpr ⟨hfirst, hsecond⟩
  exact ⟨hcanonical, ofBars_flatMap_bars.2 regionsWithEndings hcanonical (by decide)⟩

end Structure

end ScoreRepeats
