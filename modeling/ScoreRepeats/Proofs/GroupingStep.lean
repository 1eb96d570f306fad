import Mathlib.Data.List.Basic
import ScoreRepeats.Grouping
import ScoreRepeats.Proofs.FailingSteps

/-!
# What one bar does to a grouping

`Grouping.Takes` lists the ways in which a bar changes what is closed and what is open. A bar without
a number opens a run or lengthens the open one, and closes the run if it carries a repeat end. A bar
with a number begins the variations after a run or a repeat, makes the current variation grow, or
advances to the next. `Grouping.add_eq_ok_iff` states that a bar is accepted just if its id is new and
it can be taken in one of these ways.

The regions of a grouping (`Grouping.regions`) are the closed ones and the open one, which is closed
as it stands when the score ends (`build_eq_ok_iff`).
-/

set_option autoImplicit false
set_option relaxedAutoImplicit false

namespace ScoreRepeats

namespace Pending

/-- The open region as it stands. -/
def region? : Pending → Option Region
  | .nothing => none
  | .run bars _ _ => some (.plain (.straight bars))
  | .variations common earlier current => some (.varied common (NonemptyList.snoc earlier current))

/-- The closed regions with the open one, the latest first. -/
def onTop (pending : Pending) (closed : List Region) : List Region :=
  pending.region?.toList ++ closed

/-- A run is open that began with a repeat start. -/
def IsMarked (pending : Pending) : Prop := ∃ bars start, pending = .run bars true start

/-- A new run can be opened by a bar: no run is open, or one without a repeat start that a repeat
start ends. -/
def LeavesRoomFor (pending : Pending) (bar : Bar) : Prop :=
  match pending with
  | .run _ marked _ => bar.has .repeatStart = true ∧ marked = false
  | _ => True

/-- Where a run can be opened, no run is open that began with a repeat start. -/
theorem LeavesRoomFor.not_isMarked {pending : Pending} {bar : Bar}
    (room : pending.LeavesRoomFor bar) : ¬ pending.IsMarked := by
  rintro ⟨bars, start, rfl⟩
  exact absurd room.2 (by simp)

end Pending

namespace Grouping

/-- The regions of a grouping in written order, with the open one as it stands. -/
def regions (state : Grouping) : List Region := (state.pending.onTop state.closed).reverse

/-- The ways in which a bar at a position changes the closed regions and the open one. -/
inductive Takes (bar : Bar) (position : Nat) :
    List Region → Pending → List Region → Pending → Prop
  | opens {closed : List Region} {pending : Pending} (unnumbered : bar.variation = none)
      (room : pending.LeavesRoomFor bar) (unended : bar.has .repeatEnd = false) :
      Takes bar position closed pending (pending.onTop closed)
        (.run ⟨bar, []⟩ (bar.has .repeatStart) position)
  | opensAndCloses {closed : List Region} {pending : Pending} (unnumbered : bar.variation = none)
      (room : pending.LeavesRoomFor bar) (ended : bar.has .repeatEnd = true) :
      Takes bar position closed pending
        (.plain (.repeated ⟨bar, []⟩) :: pending.onTop closed) .nothing
  | lengthens {closed : List Region} {run : BarRun} {marked : Bool} {start : Nat}
      (unnumbered : bar.variation = none) (unstarted : bar.has .repeatStart = false)
      (unended : bar.has .repeatEnd = false) :
      Takes bar position closed (.run run marked start) closed (.run (run.push bar) marked start)
  | lengthensAndCloses {closed : List Region} {run : BarRun} {marked : Bool} {start : Nat}
      (unnumbered : bar.variation = none) (unstarted : bar.has .repeatStart = false)
      (ended : bar.has .repeatEnd = true) :
      Takes bar position closed (.run run marked start)
        (.plain (.repeated (run.push bar)) :: closed) .nothing
  | beginsAfterRun {closed : List Region} {run : BarRun} {marked : Bool} {start : Nat}
      (numbered : bar.variation = some 1) :
      Takes bar position closed (.run run marked start) closed
        (.variations (.straight run) [] ⟨bar, []⟩)
  | beginsAfterRepeat {closed : List Region} {run : BarRun} (numbered : bar.variation = some 1) :
      Takes bar position (.plain (.repeated run) :: closed) .nothing closed
        (.variations (.repeated run) [] ⟨bar, []⟩)
  | grows {closed : List Region} {common : Passage} {earlier : List BarRun} {current : BarRun}
      (numbered : bar.variation = some (earlier.length + 1)) :
      Takes bar position closed (.variations common earlier current) closed
        (.variations common earlier (current.push bar))
  | advances {closed : List Region} {common : Passage} {earlier : List BarRun} {current : BarRun}
      (numbered : bar.variation = some (earlier.length + 2)) :
      Takes bar position closed (.variations common earlier current) closed
        (.variations common (earlier ++ [current]) ⟨bar, []⟩)

variable {state next : Grouping} {bar : Bar} {position : Nat}

/-! ### A bar without a number -/

/-- Where there is room for it, a bar without a number opens a run. -/
theorem addPlain_of_room (room : state.pending.LeavesRoomFor bar) :
    state.addPlain bar position = .ok (if bar.has .repeatEnd then
      { state with
        closed := .plain (.repeated ⟨bar, []⟩) :: state.pending.onTop state.closed
        pending := .nothing }
    else
      { state with
        closed := state.pending.onTop state.closed
        pending := .run ⟨bar, []⟩ (bar.has .repeatStart) position }) := by
  obtain ⟨offered, closed, pending, kind⟩ := state
  cases pending with
  | nothing =>
    cases hstart : bar.has .repeatStart <;> cases hend : bar.has .repeatEnd <;>
      simp [addPlain, makeRoom, hstart, hend, closeVariations, closeRun, extendRun, closeRepeat,
        Except.map, Pending.onTop, Pending.region?]
  | run run marked start =>
    obtain ⟨hstart, rfl⟩ : bar.has .repeatStart = true ∧ marked = false := room
    cases hend : bar.has .repeatEnd <;>
      simp [addPlain, makeRoom, hstart, hend, closeVariations, closeRun, extendRun, closeRepeat,
        Except.map, Pending.onTop, Pending.region?]
  | variations common earlier current =>
    cases hstart : bar.has .repeatStart <;> cases hend : bar.has .repeatEnd <;>
      simp [addPlain, makeRoom, hstart, hend, closeVariations, closeRun, extendRun, closeRepeat,
        Except.map, Pending.onTop, Pending.region?]

/-- Without a repeat start, a bar without a number lengthens the open run. -/
theorem addPlain_of_run {run : BarRun} {marked : Bool} {start : Nat}
    (hpending : state.pending = .run run marked start) (unstarted : bar.has .repeatStart = false) :
    state.addPlain bar position = .ok (if bar.has .repeatEnd then
      { state with closed := .plain (.repeated (run.push bar)) :: state.closed, pending := .nothing }
    else { state with pending := .run (run.push bar) marked start }) := by
  cases hend : bar.has .repeatEnd <;>
    simp [addPlain, makeRoom, unstarted, hend, hpending, closeVariations, extendRun, closeRepeat,
      Except.map]

/-- A repeat start is refused while a run is open that began with one. -/
theorem addPlain_of_marked {run : BarRun} {start : Nat}
    (hpending : state.pending = .run run true start) (started : bar.has .repeatStart = true) :
    state.addPlain bar position =
      .error (Violation.repeatInsideRepeat run.head.id start position).refusal := by
  simp [addPlain, makeRoom, started, hpending, closeVariations, closeRun, Except.map]

/-- Whatever is open, there is room for a bar, or the bar lengthens the open run, or the bar would
start a repeat inside another. -/
theorem leavesRoomFor_or (pending : Pending) (bar : Bar) :
    pending.LeavesRoomFor bar ∨
      (∃ run marked start, pending = .run run marked start) ∧ bar.has .repeatStart = false ∨
      (∃ run start, pending = .run run true start) ∧ bar.has .repeatStart = true := by
  cases pending with
  | nothing => exact .inl trivial
  | variations common earlier current => exact .inl trivial
  | run run marked start =>
    cases hstart : bar.has .repeatStart with
    | false => exact .inr (.inl ⟨⟨run, marked, start, rfl⟩, rfl⟩)
    | true =>
      cases marked with
      | false => exact .inl ⟨hstart, rfl⟩
      | true => exact .inr (.inr ⟨⟨run, start, rfl⟩, rfl⟩)

/-- A bar without a number is taken by opening a run or lengthening one. -/
theorem addPlain_eq_ok_iff (unnumbered : bar.variation = none) :
    state.addPlain bar position = .ok next ↔
      ∃ closed pending, Takes bar position state.closed state.pending closed pending ∧
        next = { state with closed, pending } := by
  constructor
  · intro h
    rcases leavesRoomFor_or state.pending bar with
      room | ⟨⟨run, marked, start, hpending⟩, hstart⟩ | ⟨⟨run, start, hpending⟩, hstart⟩
    · rw [addPlain_of_room room, Except.ok.injEq] at h
      cases hend : bar.has .repeatEnd with
      | false => exact ⟨_, _, .opens unnumbered room hend, by rw [← h, if_neg (by simp [hend])]⟩
      | true => exact ⟨_, _, .opensAndCloses unnumbered room hend, by rw [← h, if_pos hend]⟩
    · rw [addPlain_of_run hpending hstart, Except.ok.injEq] at h
      rw [hpending]
      cases hend : bar.has .repeatEnd with
      | false =>
        exact ⟨_, _, .lengthens unnumbered hstart hend, by rw [← h, if_neg (by simp [hend])]⟩
      | true =>
        exact ⟨_, _, .lengthensAndCloses unnumbered hstart hend, by rw [← h, if_pos hend]⟩
    · rw [addPlain_of_marked hpending hstart] at h
      cases h
  · rintro ⟨closed, pending, htakes, rfl⟩
    obtain ⟨offered, closedBefore, pendingBefore, kind⟩ := state
    cases htakes with
    | opens _ room unended => rw [addPlain_of_room room, if_neg (by simp [unended])]
    | opensAndCloses _ room ended => rw [addPlain_of_room room, if_pos ended]
    | lengthens _ unstarted unended => rw [addPlain_of_run rfl unstarted, if_neg (by simp [unended])]
    | lengthensAndCloses _ unstarted ended => rw [addPlain_of_run rfl unstarted, if_pos ended]
    | beginsAfterRun numbered => simp [unnumbered] at numbered
    | beginsAfterRepeat numbered => simp [unnumbered] at numbered
    | grows numbered => simp [unnumbered] at numbered
    | advances numbered => simp [unnumbered] at numbered

/-! ### A bar of a variation -/

/-- After an open run only a first variation is accepted; the run becomes what it shares. -/
theorem addVariation_of_run {run : BarRun} {marked : Bool} {start number : Nat}
    (hpending : state.pending = .run run marked start) :
    state.addVariation bar number position =
      if number = 1 then .ok { state with pending := .variations (.straight run) [] ⟨bar, []⟩ }
      else .error (Violation.variationBeforeFirst bar.id number position).refusal := by
  simp [addVariation, hpending]

/-- After a repeat only a first variation is accepted; the repeat becomes what it shares. -/
theorem addVariation_of_repeat {run : BarRun} {closed : List Region} {number : Nat}
    (hpending : state.pending = .nothing)
    (hclosed : state.closed = .plain (.repeated run) :: closed) :
    state.addVariation bar number position =
      if number = 1 then
        .ok { state with closed, pending := .variations (.repeated run) [] ⟨bar, []⟩ }
      else .error (Violation.variationBeforeFirst bar.id number position).refusal := by
  simp [addVariation, hpending, hclosed]

/-- Where nothing is open and no repeat was closed last, no variation is accepted. -/
theorem addVariation_of_nothing {number : Nat} (hpending : state.pending = .nothing)
    (hclosed : ∀ run closed, state.closed ≠ .plain (.repeated run) :: closed) :
    state.addVariation bar number position =
      if number = 1 then .error (Violation.noCommonPassage bar.id position).refusal
      else .error (Violation.variationBeforeFirst bar.id number position).refusal := by
  simp only [addVariation, hpending]

/-- Within variations, the number of the current variation or the next is accepted. -/
theorem addVariation_of_variations {common : Passage} {earlier : List BarRun} {current : BarRun}
    {number : Nat} (hpending : state.pending = .variations common earlier current) :
    state.addVariation bar number position =
      if number = earlier.length + 1 then
        .ok { state with pending := .variations common earlier (current.push bar) }
      else if number = earlier.length + 2 then
        .ok { state with pending := .variations common (earlier ++ [current]) ⟨bar, []⟩ }
      else
        .error (Violation.variationOutOfTurn bar.id number (earlier.length + 1) position).refusal := by
  simp [addVariation, hpending]

/-- A bar with a number is taken by beginning the variations, by growing the current one or by
advancing to the next. -/
theorem addVariation_eq_ok_iff {number : Nat} (numbered : bar.variation = some number) :
    state.addVariation bar number position = .ok next ↔
      ∃ closed pending, Takes bar position state.closed state.pending closed pending ∧
        next = { state with closed, pending } := by
  constructor
  · intro h
    cases hpending : state.pending with
    | nothing =>
      by_cases hclosed : ∃ run closed, state.closed = .plain (.repeated run) :: closed
      · obtain ⟨run, closed, hclosed⟩ := hclosed
        rw [addVariation_of_repeat hpending hclosed] at h
        split_ifs at h with hone
        rw [hclosed]
        exact ⟨_, _, .beginsAfterRepeat (hone ▸ numbered), (Except.ok.inj h).symm⟩
      · simp only [not_exists] at hclosed
        rw [addVariation_of_nothing hpending hclosed] at h
        split_ifs at h
    | run run marked start =>
      rw [addVariation_of_run hpending] at h
      split_ifs at h with hone
      exact ⟨_, _, .beginsAfterRun (hone ▸ numbered), (Except.ok.inj h).symm⟩
    | variations common earlier current =>
      rw [addVariation_of_variations hpending] at h
      split_ifs at h with hsame hnext
      · exact ⟨_, _, .grows (hsame ▸ numbered), (Except.ok.inj h).symm⟩
      · exact ⟨_, _, .advances (hnext ▸ numbered), (Except.ok.inj h).symm⟩
  · rintro ⟨closed, pending, htakes, rfl⟩
    obtain ⟨offered, closedBefore, pendingBefore, kind⟩ := state
    cases htakes with
    | opens unnumbered => simp [numbered] at unnumbered
    | opensAndCloses unnumbered => simp [numbered] at unnumbered
    | lengthens unnumbered => simp [numbered] at unnumbered
    | lengthensAndCloses unnumbered => simp [numbered] at unnumbered
    | beginsAfterRun hone =>
      obtain rfl : number = 1 := Option.some.inj (numbered.symm.trans hone)
      exact (addVariation_of_run rfl).trans (if_pos rfl)
    | beginsAfterRepeat hone =>
      obtain rfl : number = 1 := Option.some.inj (numbered.symm.trans hone)
      exact (addVariation_of_repeat rfl rfl).trans (if_pos rfl)
    | @grows _ _ earlier _ hsame =>
      obtain rfl : number = earlier.length + 1 := Option.some.inj (numbered.symm.trans hsame)
      exact (addVariation_of_variations rfl).trans (if_pos rfl)
    | @advances _ _ earlier _ hnext =>
      obtain rfl : number = earlier.length + 2 := Option.some.inj (numbered.symm.trans hnext)
      rw [addVariation_of_variations rfl, if_neg (by omega), if_pos rfl]

/-! ### Any bar -/

/-- A bar is accepted just if its id is new and it can be taken. -/
theorem add_eq_ok_iff :
    state.add bar = .ok next ↔ bar.id ∉ state.offered ∧
      ∃ closed pending,
        Takes bar state.offered.length state.closed state.pending closed pending ∧
        next = ⟨state.offered ++ [bar.id], closed, pending, kindWith state.kind bar⟩ := by
  by_cases hknown : bar.id ∈ state.offered
  · simp [add, hknown]
  · cases hvariation : bar.variation with
    | none =>
      simp only [add, hknown, if_false, hvariation, not_false_eq_true, true_and]
      exact addPlain_eq_ok_iff hvariation
    | some number =>
      simp only [add, hknown, if_false, hvariation, not_false_eq_true, true_and]
      exact addVariation_eq_ok_iff hvariation

/-! ### The end of a score -/

/-- All regions closed as they stand. -/
def settled (state : Grouping) : Grouping :=
  { state with closed := state.pending.onTop state.closed, pending := .nothing }

/-- Unless a repeat is open, all that is open can be closed. -/
theorem settle_of_not_isMarked (hopen : ¬ state.pending.IsMarked) : state.settle = .ok state.settled := by
  obtain ⟨offered, closed, pending, kind⟩ := state
  cases pending with
  | nothing => rfl
  | variations common earlier current => rfl
  | run run marked start =>
    cases marked with
    | false => rfl
    | true => exact absurd ⟨run, start, rfl⟩ hopen

/-- A grouping is built just if no repeat is open and there is a region. The structure has the
regions as they stand. -/
theorem build_eq_ok_iff {piece : Structure} :
    state.build = .ok (piece, next) ↔
      ¬ state.pending.IsMarked ∧ next = state.settled ∧
        ∃ regions : NonemptyList Region, regions.toList = state.regions ∧
          piece = .ofRegions regions state.kind := by
  by_cases hopen : state.pending.IsMarked
  · obtain ⟨run, start, hpending⟩ := hopen
    have hmarked : state.pending.IsMarked := ⟨run, start, hpending⟩
    rw [hpending] at hmarked
    simp [build, settle, closeVariations, closeRun, hpending, hmarked]
  · rw [build, settle_of_not_isMarked hopen]
    cases htop : state.pending.onTop state.closed with
    | nil =>
      have hregions : state.regions = [] := by rw [regions, htop, List.reverse_nil]
      simp [settled, htop, hregions]
    | cons latest earlier =>
      have hregions : state.regions = earlier.reverse ++ [latest] := by
        rw [regions, htop, List.reverse_cons]
      simp only [settled, htop, Except.ok.injEq, Prod.mk.injEq, hopen, not_false_eq_true, true_and,
        hregions]
      constructor
      · rintro ⟨rfl, rfl⟩
        exact ⟨rfl, _, NonemptyList.toList_snoc _ _, rfl⟩
      · rintro ⟨rfl, regions, hlist, rfl⟩
        rw [← NonemptyList.toList_snoc] at hlist
        rw [NonemptyList.ext hlist]
        exact ⟨rfl, rfl⟩

/-- A whole score has a structure just if its bars are accepted one after the other and no repeat is
open at the end. -/
theorem ofBars_eq_ok_iff {bars : List Bar} {piece : Structure} :
    Structure.ofBars bars = .ok piece ↔
      ∃ last, bars.foldlM add start = .ok last ∧ ¬ last.pending.IsMarked ∧
        ∃ regions : NonemptyList Region, regions.toList = last.regions ∧
          piece = .ofRegions regions last.kind := by
  unfold Structure.ofBars
  cases hrun : bars.foldlM add start with
  | error violation => simp
  | ok last =>
    simp only [Except.ok.injEq, exists_eq_left']
    constructor
    · intro h
      cases hbuild : last.build with
      | error violation =>
        rw [hbuild] at h
        cases h
      | ok built =>
        obtain ⟨built, settled⟩ := built
        rw [hbuild] at h
        cases h
        obtain ⟨hopen, -, hregions⟩ := build_eq_ok_iff.mp hbuild
        exact ⟨hopen, hregions⟩
    · rintro ⟨hopen, hregions⟩
      rw [build_eq_ok_iff.mpr ⟨hopen, rfl, hregions⟩]
      rfl

end Grouping

end ScoreRepeats
