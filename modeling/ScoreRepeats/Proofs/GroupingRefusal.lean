import ScoreRepeats.Proofs.GroupingStep

/-!
# What a grouping refuses, and what it leaves

A bar is refused in one of five ways (`Grouping.Refuses`), each for a violation that names the bar
or the open repeat. A refused bar could not have changed the kind of the piece, since a bar that
starts a repeat carries no jump instruction, nor does a bar of a variation; and it closed nothing.
So all that it leaves is that it was offered (`Grouping.Refuses.afterRefusal_eq`).

Asked for a structure, a grouping refuses while a repeat is open and as long as there are no bars.
Its answer depends on the open repeat, the regions and the kind alone
(`Grouping.respond_build_congr`).
-/

set_option autoImplicit false
set_option relaxedAutoImplicit false

namespace ScoreRepeats

/-! ### Marks that a bar cannot carry -/

/-- A bar of a variation carries none of the markers that are barred from variations. -/
theorem Bar.has_eq_false_of_numbered {bar : Bar} {marker : Marker} (numbered : bar.variation ≠ none)
    (hmarker : marker.barredFromVariations = true) : bar.has marker = false := by
  have hbarred := bar.not_barred numbered
  rw [MarkerSet.barredFromVariations, List.filter_eq_nil_iff] at hbarred
  by_contra hmarked
  rw [Bool.not_eq_false] at hmarked
  exact hbarred marker ((bar.markers.mem_toList _).mpr hmarked) hmarker

/-- A bar of a variation starts no repeat. -/
theorem Bar.has_repeatStart_eq_false {bar : Bar} (numbered : bar.variation ≠ none) :
    bar.has .repeatStart = false :=
  Bar.has_eq_false_of_numbered numbered rfl

/-- Two marks on a bar can share it. -/
theorem Bar.excludes_eq_false {bar : Bar} {marker other : Marker} (hmarker : bar.has marker = true)
    (hother : bar.has other = true) : marker.excludes other = false :=
  MarkerSet.isCompatible_iff.mp bar.compatible marker other hmarker hother

/-- A bar that starts a repeat does not jump. -/
theorem Bar.hasJump_eq_false_of_repeatStart {bar : Bar} (hstart : bar.has .repeatStart = true) :
    bar.hasJump = false := by
  by_contra hjump
  rw [Bool.not_eq_false, Bar.hasJump_iff] at hjump
  rcases hjump with hjump | hjump
  · exact absurd (Bar.excludes_eq_false hstart hjump) (by decide)
  · exact absurd (Bar.excludes_eq_false hstart hjump) (by decide)

/-- A bar of a variation does not jump. -/
theorem Bar.hasJump_eq_false_of_numbered {bar : Bar} (numbered : bar.variation ≠ none) :
    bar.hasJump = false := by
  by_contra hjump
  rw [Bool.not_eq_false, Bar.hasJump_iff] at hjump
  have hbarred : bar.has .daCapo = false ∧ bar.has .dalSegno = false :=
    ⟨Bar.has_eq_false_of_numbered numbered rfl, Bar.has_eq_false_of_numbered numbered rfl⟩
  simp [hbarred] at hjump

/-- The number of the variation that is open, if one is. -/
def Pending.number? : Pending → Option Nat
  | .variations _ earlier _ => some (earlier.length + 1)
  | _ => none

namespace Grouping

variable {state : Grouping} {bar : Bar} {violation : Violation} {refusal : Refusal}

/-- A bar that does not jump leaves the kind as it is. -/
theorem kindWith_of_not_hasJump (hjump : bar.hasJump = false) (kind : Kind) :
    kindWith kind bar = kind := by
  have hmarks : ¬ (bar.has .daCapo = true ∨ bar.has .dalSegno = true) := by
    rw [← Bar.hasJump_iff, hjump]
    exact Bool.false_ne_true
  rw [not_or] at hmarks
  cases kind with
  | bare => simp [kindWith, hmarks.1, hmarks.2]
  | daCapo => rfl
  | dalSegno => rfl

/-! ### Refused bars -/

/-- The ways in which a bar is refused. -/
inductive Refuses (state : Grouping) (bar : Bar) : Violation → Prop
  | known (old : bar.id ∈ state.offered) :
      Refuses state bar
        (.repeatedId bar.id (state.offered.idxOf bar.id) state.offered.length)
  | insideRepeat {run : BarRun} {start : Nat} (fresh : bar.id ∉ state.offered)
      (unnumbered : bar.variation = none) (started : bar.has .repeatStart = true)
      (hpending : state.pending = .run run true start) :
      Refuses state bar (.repeatInsideRepeat run.head.id start state.offered.length)
  | beforeFirst {number : Nat} (fresh : bar.id ∉ state.offered)
      (numbered : bar.variation = some number) (later : number ≠ 1)
      (hpending : state.pending.number? = none) :
      Refuses state bar (.variationBeforeFirst bar.id number state.offered.length)
  | noCommon (fresh : bar.id ∉ state.offered) (numbered : bar.variation = some 1)
      (hpending : state.pending = .nothing)
      (unrepeated : ∀ run closed, state.closed ≠ .plain (.repeated run) :: closed) :
      Refuses state bar (.noCommonPassage bar.id state.offered.length)
  | outOfTurn {number current : Nat} (fresh : bar.id ∉ state.offered)
      (numbered : bar.variation = some number) (hpending : state.pending.number? = some current)
      (other : number ≠ current ∧ number ≠ current + 1) :
      Refuses state bar (.variationOutOfTurn bar.id number current state.offered.length)

/-- A bar without a number is refused for its id, or for a repeat inside another. -/
theorem refuses_of_addPlain_eq_error {known : Grouping} (fresh : bar.id ∉ state.offered)
    (unnumbered : bar.variation = none) (hknown : known.pending = state.pending)
    (h : known.addPlain bar state.offered.length = .error refusal) :
    ∃ violation, Refuses state bar violation ∧ violation.refusal = refusal := by
  rcases leavesRoomFor_or known.pending bar with
    room | ⟨⟨run, marked, start, hpending⟩, hstart⟩ | ⟨⟨run, start, hpending⟩, hstart⟩
  · rw [addPlain_of_room room] at h
    cases h
  · rw [addPlain_of_run hpending hstart] at h
    cases h
  · rw [addPlain_of_marked hpending hstart] at h
    exact ⟨_, .insideRepeat fresh unnumbered hstart (hknown.symm.trans hpending), Except.error.inj h⟩

/-- A bar with a number is refused if there is nothing that the number continues. -/
theorem refuses_of_addVariation_eq_error {known : Grouping} {number : Nat}
    (fresh : bar.id ∉ state.offered) (numbered : bar.variation = some number)
    (hknown : known.pending = state.pending) (hclosed : known.closed = state.closed)
    (h : known.addVariation bar number state.offered.length = .error refusal) :
    ∃ violation, Refuses state bar violation ∧ violation.refusal = refusal := by
  cases hpending : state.pending with
  | nothing =>
    have hnumber : state.pending.number? = none := by rw [hpending]; rfl
    by_cases hrepeat : ∃ run closed, state.closed = .plain (.repeated run) :: closed
    · obtain ⟨run, closed, hrepeat⟩ := hrepeat
      rw [addVariation_of_repeat (hknown.trans hpending) (hclosed.trans hrepeat)] at h
      split_ifs at h with hone
      exact ⟨_, .beforeFirst fresh numbered hone hnumber, Except.error.inj h⟩
    · simp only [not_exists] at hrepeat
      rw [addVariation_of_nothing (hknown.trans hpending) (by rwa [hclosed])] at h
      split_ifs at h with hone
      · exact ⟨_, .noCommon fresh (hone ▸ numbered) hpending hrepeat, Except.error.inj h⟩
      · exact ⟨_, .beforeFirst fresh numbered hone hnumber, Except.error.inj h⟩
  | run run marked start =>
    rw [addVariation_of_run (hknown.trans hpending)] at h
    split_ifs at h with hone
    exact ⟨_, .beforeFirst fresh numbered hone (by rw [hpending]; rfl), Except.error.inj h⟩
  | variations common earlier current =>
    rw [addVariation_of_variations (hknown.trans hpending)] at h
    split_ifs at h with hsame hnext
    exact ⟨_, .outOfTurn fresh numbered (by rw [hpending]; rfl) ⟨hsame, hnext⟩, Except.error.inj h⟩

/-- A bar that is refused is refused in one of these ways. -/
theorem exists_refuses_of_add_eq_error (h : state.add bar = .error refusal) :
    ∃ violation, Refuses state bar violation ∧ violation.refusal = refusal := by
  by_cases hknown : bar.id ∈ state.offered
  · simp only [add, hknown, if_true] at h
    exact ⟨_, .known hknown, Except.error.inj h⟩
  · cases hvariation : bar.variation with
    | none =>
      simp only [add, hknown, if_false, hvariation] at h
      refine refuses_of_addPlain_eq_error hknown hvariation ?_ h
      rfl
    | some number =>
      simp only [add, hknown, if_false, hvariation] at h
      refine refuses_of_addVariation_eq_error hknown hvariation ?_ ?_ h
      · rfl
      · rfl

/-- A bar is refused for a repeated id or for the form of the score. -/
theorem Refuses.rule_eq (h : Refuses state bar violation) :
    violation.rule = .duplicateBarId ∨ violation.rule = .malformedStructure := by
  cases h with
  | known => exact .inl rfl
  | insideRepeat => exact .inr rfl
  | beforeFirst => exact .inr rfl
  | noCommon => exact .inr rfl
  | outOfTurn => exact .inr rfl

/-- A bar is refused for its id just if the id is known. -/
theorem Refuses.rule_eq_iff (h : Refuses state bar violation) :
    violation.rule = .duplicateBarId ↔ bar.id ∈ state.offered := by
  cases h with
  | known old => exact iff_of_true rfl old
  | insideRepeat fresh => exact iff_of_false (by simp [Violation.rule]) fresh
  | beforeFirst fresh => exact iff_of_false (by simp [Violation.rule]) fresh
  | noCommon fresh => exact iff_of_false (by simp [Violation.rule]) fresh
  | outOfTurn fresh => exact iff_of_false (by simp [Violation.rule]) fresh

/-- A refusal cannot be told just if the bar has a new id and a number too long to be written. -/
theorem Refuses.isWritable_eq_false_iff (h : Refuses state bar violation) :
    violation.isWritable = false ↔ bar.id ∉ state.offered ∧
      ∃ number, bar.variation = some number ∧ Numeral.isWritable number = false := by
  cases h with
  | known old =>
    exact iff_of_false (by simp [Violation.isWritable, Violation.quantities]) (absurd old ·.1)
  | insideRepeat _ unnumbered =>
    exact iff_of_false (by simp [Violation.isWritable, Violation.quantities]) (by simp [unnumbered])
  | beforeFirst fresh numbered =>
    simp [Violation.isWritable, Violation.quantities, fresh, numbered]
  | noCommon fresh numbered =>
    refine iff_of_false (by simp [Violation.isWritable, Violation.quantities]) ?_
    rintro ⟨-, number, hnumber, hlong⟩
    obtain rfl : 1 = number := Option.some.inj (numbered.symm.trans hnumber)
    rw [Numeral.isWritable_of_natAbs_lt (by decide)] at hlong
    cases hlong
  | outOfTurn fresh numbered =>
    simp [Violation.isWritable, Violation.quantities, fresh, numbered]

/-- A refused bar leaves nothing behind but its id. -/
theorem Refuses.afterRefusal_eq (h : Refuses state bar violation) :
    state.afterRefusal bar = state.remember bar := by
  by_cases hknown : bar.id ∈ state.offered
  · rw [afterRefusal, if_pos hknown]
  · rw [afterRefusal, if_neg hknown]
    have hnumbered : bar.variation ≠ none →
        { state.remember bar with kind := kindWith state.kind bar } = state.remember bar := by
      intro numbered
      rw [kindWith_of_not_hasJump (Bar.hasJump_eq_false_of_numbered numbered)]
      rfl
    cases h with
    | known old => exact absurd old hknown
    | insideRepeat _ unnumbered started hpending =>
      simp only [unnumbered, kindWith_of_not_hasJump (Bar.hasJump_eq_false_of_repeatStart started)]
      simp [closeVariations, remember, hpending]
    | beforeFirst _ numbered => simpa [numbered] using hnumbered
    | noCommon _ numbered => simpa [numbered] using hnumbered
    | outOfTurn _ numbered => simpa [numbered] using hnumbered

/-- A bar is taken, or it is refused and only its id is kept. -/
theorem respond_offer (state : Grouping) (bar : Bar) :
    (∃ closed pending, bar.id ∉ state.offered ∧
      Takes bar state.offered.length state.closed state.pending closed pending ∧
      state.respond (.offer bar) =
        (⟨state.offered ++ [bar.id], closed, pending, kindWith state.kind bar⟩, .accepted)) ∨
    ∃ violation, Refuses state bar violation ∧
      state.respond (.offer bar) = (state.remember bar, .refused violation.refusal) := by
  cases hadd : state.add bar with
  | ok next =>
    obtain ⟨hnew, closed, pending, htakes, rfl⟩ := add_eq_ok_iff.mp hadd
    refine .inl ⟨closed, pending, hnew, htakes, ?_⟩
    simp only [respond, feed, hadd]
  | error refusal =>
    obtain ⟨violation, hrefuses, rfl⟩ := exists_refuses_of_add_eq_error hadd
    refine .inr ⟨violation, hrefuses, ?_⟩
    simp only [respond, feed, hadd, hrefuses.afterRefusal_eq]

/-! ### Asking for a structure -/

@[simp] theorem pending_settled (state : Grouping) : state.settled.pending = .nothing := rfl

/-- A repeat is open, or there are no regions, or there are. -/
theorem isMarked_or_regions (state : Grouping) :
    (∃ run start, state.pending = .run run true start) ∨
      ¬ state.pending.IsMarked ∧ state.regions = [] ∨
      ¬ state.pending.IsMarked ∧ ∃ regions : NonemptyList Region, regions.toList = state.regions := by
  by_cases hopen : state.pending.IsMarked
  · exact .inl hopen
  · cases hregions : state.regions with
    | nil => exact .inr (.inl ⟨hopen, rfl⟩)
    | cons first rest => exact .inr (.inr ⟨hopen, ⟨first, rest⟩, rfl⟩)

/-- An open repeat cannot be closed as it stands. -/
theorem settle_of_run {run : BarRun} {start : Nat}
    (hpending : state.pending = .run run true start) :
    state.settle = .error (Violation.repeatNeverClosed run.head.id start).refusal := by
  simp [settle, closeVariations, closeRun, hpending]

/-- While a repeat is open, a structure is refused. -/
theorem build_of_run {run : BarRun} {start : Nat} (hpending : state.pending = .run run true start) :
    state.build = .error (Violation.repeatNeverClosed run.head.id start).refusal := by
  simp only [build, settle_of_run hpending]

/-- Without bars there is no structure. -/
theorem build_of_regions_eq_nil (hopen : ¬ state.pending.IsMarked) (hregions : state.regions = []) :
    state.build = .error Violation.noBars.refusal := by
  have hclosed : state.settled.closed = [] := List.reverse_eq_nil_iff.mp hregions
  simp only [build, settle_of_not_isMarked hopen, hclosed]

/-- Unless a repeat is open, the regions make up the structure. -/
theorem build_of_regions (hopen : ¬ state.pending.IsMarked) {regions : NonemptyList Region}
    (hregions : regions.toList = state.regions) :
    state.build = .ok (.ofRegions regions state.kind, state.settled) :=
  build_eq_ok_iff.mpr ⟨hopen, rfl, regions, hregions, rfl⟩

/-- A structure is refused for want of bars or for an open repeat. -/
theorem of_build_eq_error (h : state.build = .error refusal) :
    refusal = .violation .noBars ∨ ∃ run start, state.pending = .run run true start ∧
      refusal = .violation (.repeatNeverClosed run.head.id start) := by
  rcases isMarked_or_regions state with
    ⟨run, start, hrun⟩ | ⟨hclosed, hnil⟩ | ⟨hclosed, regions, hlist⟩
  · rw [build_of_run hrun] at h
    exact .inr ⟨run, start, hrun, (Except.error.inj h).symm⟩
  · rw [build_of_regions_eq_nil hclosed hnil] at h
    exact .inl (Except.error.inj h).symm
  · rw [build_of_regions hclosed hlist] at h
    cases h

/-- Where an open repeat keeps a structure from being given, nothing changes. -/
theorem respond_build_of_run {run : BarRun} {start : Nat}
    (hpending : state.pending = .run run true start) :
    state.respond .build = (state, .refused (.violation (.repeatNeverClosed run.head.id start))) := by
  have hafter : state.afterBuild = state := by
    rw [afterBuild, settle_of_run hpending]
    simp [closeVariations, hpending]
  simp only [respond, build_of_run hpending, hafter]
  rfl

/-- Unless a repeat is open, all regions are closed when a structure is asked for. -/
theorem afterBuild_of_not_isMarked (hopen : ¬ state.pending.IsMarked) :
    state.afterBuild = state.settled := by
  rw [afterBuild, settle_of_not_isMarked hopen]

/-- Without bars a structure is refused. -/
theorem respond_build_of_regions_eq_nil (hopen : ¬ state.pending.IsMarked)
    (hregions : state.regions = []) :
    state.respond .build = (state.settled, .refused (.violation .noBars)) := by
  simp only [respond, build_of_regions_eq_nil hopen hregions, afterBuild_of_not_isMarked hopen]
  rfl

/-- Unless a repeat is open, the structure that the regions make up is given. -/
theorem respond_build_of_regions (hopen : ¬ state.pending.IsMarked) {regions : NonemptyList Region}
    (hregions : regions.toList = state.regions) :
    state.respond .build = (state.settled, .built (.ofRegions regions state.kind)) := by
  simp only [respond, build_of_regions hopen hregions, afterBuild_of_not_isMarked hopen]

/-- Whether there is a structure, and which, depends on the open repeat, the regions and the kind.
-/
theorem respond_build_congr {first second : Grouping}
    (hopen : ∀ run start, first.pending = .run run true start ↔ second.pending = .run run true start)
    (hregions : first.regions = second.regions) (hkind : first.kind = second.kind) :
    (first.respond .build).2 = (second.respond .build).2 := by
  have hmarked : first.pending.IsMarked ↔ second.pending.IsMarked :=
    exists_congr fun run ↦ exists_congr fun start ↦ hopen run start
  rcases isMarked_or_regions first with
    ⟨run, start, hrun⟩ | ⟨hclosed, hnil⟩ | ⟨hclosed, regions, hlist⟩
  · rw [respond_build_of_run hrun, respond_build_of_run ((hopen run start).mp hrun)]
  · rw [respond_build_of_regions_eq_nil hclosed hnil,
      respond_build_of_regions_eq_nil (mt hmarked.mpr hclosed) (hregions.symm.trans hnil)]
  · rw [respond_build_of_regions hclosed hlist,
      respond_build_of_regions (mt hmarked.mpr hclosed) (hlist.trans hregions), hkind]

/-- A bar of which only the id is kept makes no difference to the structure. -/
theorem respond_build_remember (state : Grouping) (bar : Bar) :
    ((state.remember bar).respond .build).2 = (state.respond .build).2 :=
  respond_build_congr (fun _ _ ↦ Iff.rfl) rfl rfl

/-- Asked twice for a structure, a grouping gives the same answer. -/
theorem respond_build_build (state : Grouping) :
    ((state.respond .build).1.respond .build).2 = (state.respond .build).2 := by
  have hsettled : ¬ state.pending.IsMarked →
      (state.settled.respond .build).2 = (state.respond .build).2 := by
    intro hclosed
    refine respond_build_congr (fun run start ↦ iff_of_false ?_ ?_) rfl rfl
    · simp
    · exact fun hrun ↦ hclosed ⟨run, start, hrun⟩
  rcases isMarked_or_regions state with
    ⟨run, start, hrun⟩ | ⟨hclosed, hnil⟩ | ⟨hclosed, regions, hlist⟩
  · have hsame := respond_build_of_run hrun
    rw [hsame, hsame]
  · rw [← hsettled hclosed, respond_build_of_regions_eq_nil hclosed hnil]
  · rw [← hsettled hclosed, respond_build_of_regions hclosed hlist]

end Grouping

end ScoreRepeats
