import Mathlib.Data.Fintype.EquivFin
import ScoreRepeats.Proofs.CanonicalGrouping
import ScoreRepeats.Proofs.GroupingRefusal
import ScoreRepeats.Proofs.ScoreGrammar

/-!
# What grouping accepts, and when it refuses

After some bars a grouping knows of them what the next bar is judged by: the number of the last bar
(`Grouping.IsTidy.variation_eq_number?`) and whether a repeat is open
(`Grouping.isMarked_iff_hasOpenRepeat`). Hence it accepts a bar just if the bars before admit it
(`Grouping.exists_add_eq_ok_iff`), and a whole score just if the score is grammatical. Every score
that is refused is refused for a repeated id or for its form, and at the first bar that no further
bars can make good.
-/

set_option autoImplicit false
set_option relaxedAutoImplicit false

namespace ScoreRepeats

namespace Grouping

variable {bar : Bar} {position : Nat} {closed closed' : List Region} {pending pending' : Pending}
variable {bars : List Bar} {state : Grouping}

/-! ### What a grouping knows of its bars -/

/-- The latest region of a tidy grouping ends with a bar of the number that is open. -/
theorem IsTidy.variation_lastBar {top : Region} {rest : List Region} (tidy : IsTidy closed pending)
    (htop : pending.onTop closed = top :: rest) : top.lastBar.variation = pending.number? := by
  have hfits := tidy.fits
  cases pending with
  | nothing =>
    obtain rfl : closed = top :: rest := htop
    obtain ⟨run, rfl⟩ := tidy.ended rfl top rfl
    have hrepeat : run.IsRepeat := tidy.each _ List.mem_cons_self
    exact hrepeat.unnumbered _ run.last_mem
  | run run marked start =>
    obtain ⟨rfl, rfl⟩ := List.cons_eq_cons.mp htop
    exact hfits.1.unnumbered _ run.last_mem
  | variations common earlier current =>
    obtain ⟨rfl, rfl⟩ := List.cons_eq_cons.mp htop
    have hnumbered := (isNumberedFromOne_concat_iff.mp hfits.2).2
    have hlast : (NonemptyList.snoc earlier current).last = current := by
      have hsome := (NonemptyList.snoc earlier current).getLast?_toList
      rw [NonemptyList.toList_snoc, List.getLast?_concat] at hsome
      exact (Option.some.inj hsome).symm
    show (NonemptyList.snoc earlier current).last.last.variation = _
    rw [hlast]
    exact hnumbered _ current.last_mem

/-- The last bar of a tidy grouping has the number that is open. -/
theorem IsTidy.variation_eq_number? {previous : Bar} (tidy : IsTidy closed pending)
    (hlast : ((pending.onTop closed).reverse.flatMap Region.bars).getLast? = some previous) :
    previous.variation = pending.number? := by
  cases htop : pending.onTop closed with
  | nil => simp [htop] at hlast
  | cons top rest =>
    rw [htop, List.reverse_cons, List.flatMap_append, List.flatMap_singleton, List.getLast?_append,
      top.getLast?_bars, Option.some_or, Option.some.injEq] at hlast
    rw [← hlast]
    exact tidy.variation_lastBar htop

/-- After a taken bar a repeat is open if the bar closes none and starts one or leaves one open. -/
theorem Takes.isMarked_iff (h : Takes bar position closed pending closed' pending') :
    pending'.IsMarked ↔
      ¬ bar.ClosesRepeat ∧ (bar.has .repeatStart = true ∨ pending.IsMarked) := by
  cases h with
  | opens unnumbered room unended =>
    have hcloses : ¬ bar.ClosesRepeat := by simp [Bar.ClosesRepeat, unnumbered, unended]
    rw [or_iff_left room.not_isMarked, and_iff_right hcloses]
    simp [Pending.IsMarked]
  | opensAndCloses unnumbered room ended =>
    simp [Pending.IsMarked, Bar.ClosesRepeat, ended]
  | lengthens unnumbered unstarted unended =>
    simp [Pending.IsMarked, Bar.ClosesRepeat, unnumbered, unstarted, unended]
  | lengthensAndCloses unnumbered unstarted ended =>
    simp [Pending.IsMarked, Bar.ClosesRepeat, ended]
  | beginsAfterRun numbered => simp [Pending.IsMarked, Bar.ClosesRepeat, numbered]
  | beginsAfterRepeat numbered => simp [Pending.IsMarked, Bar.ClosesRepeat, numbered]
  | grows numbered => simp [Pending.IsMarked, Bar.ClosesRepeat, numbered]
  | advances numbered => simp [Pending.IsMarked, Bar.ClosesRepeat, numbered]

/-- A grouping has a repeat open just if its bars do. -/
theorem isMarked_iff_hasOpenRepeat (hstate : bars.foldlM add start = .ok state) :
    state.pending.IsMarked ↔ HasOpenRepeat bars := by
  induction bars using List.reverseRecOn generalizing state with
  | nil =>
    obtain rfl : start = state := Except.ok.inj hstate
    simp [Pending.IsMarked, HasOpenRepeat, start]
  | append_singleton bars bar ih =>
    obtain ⟨middle, hmiddle, hadd⟩ := foldlM_concat_eq_ok_iff.mp hstate
    obtain ⟨-, closed, pending, htakes, rfl⟩ := add_eq_ok_iff.mp hadd
    rw [hasOpenRepeat_concat_iff, ← ih hmiddle]
    exact htakes.isMarked_iff

/-! ### Acceptance -/

/-- A number that is taken comes behind a region and continues the one that is open. -/
theorem Takes.continues {number : Nat}
    (h : Takes bar position closed pending closed' pending') (hnumber : bar.variation = some number) :
    pending.onTop closed ≠ [] ∧ Continues pending.number? number := by
  cases h with
  | opens unnumbered => simp [hnumber] at unnumbered
  | opensAndCloses unnumbered => simp [hnumber] at unnumbered
  | lengthens unnumbered => simp [hnumber] at unnumbered
  | lengthensAndCloses unnumbered => simp [hnumber] at unnumbered
  | beginsAfterRun numbered =>
    exact ⟨List.cons_ne_nil _ _, Option.some.inj (hnumber.symm.trans numbered)⟩
  | beginsAfterRepeat numbered =>
    exact ⟨List.cons_ne_nil _ _, Option.some.inj (hnumber.symm.trans numbered)⟩
  | grows numbered =>
    exact ⟨List.cons_ne_nil _ _, .inl (Option.some.inj (hnumber.symm.trans numbered))⟩
  | advances numbered =>
    exact ⟨List.cons_ne_nil _ _, .inr (Option.some.inj (hnumber.symm.trans numbered))⟩

/-- Where a bar is taken that starts a repeat, no repeat is open. -/
theorem Takes.not_isMarked (h : Takes bar position closed pending closed' pending')
    (hstart : bar.has .repeatStart = true) : ¬ pending.IsMarked := by
  have unnumbered : bar.variation = none := by
    by_contra numbered
    simp [Bar.has_repeatStart_eq_false numbered] at hstart
  cases h with
  | opens _ room => exact room.not_isMarked
  | opensAndCloses _ room => exact room.not_isMarked
  | lengthens _ unstarted => simp [hstart] at unstarted
  | lengthensAndCloses _ unstarted => simp [hstart] at unstarted
  | beginsAfterRun numbered => simp [unnumbered] at numbered
  | beginsAfterRepeat numbered => simp [unnumbered] at numbered
  | grows numbered => simp [unnumbered] at numbered
  | advances numbered => simp [unnumbered] at numbered

/-- A bar without a number is taken unless it starts a repeat inside another. -/
theorem exists_takes_of_unnumbered (unnumbered : bar.variation = none)
    (hunmarked : bar.has .repeatStart = true → ¬ pending.IsMarked) :
    ∃ closed' pending', Takes bar position closed pending closed' pending' := by
  rcases leavesRoomFor_or pending bar with
    room | ⟨⟨run, marked, start, rfl⟩, unstarted⟩ | ⟨⟨run, start, rfl⟩, started⟩
  · cases hend : bar.has .repeatEnd with
    | false => exact ⟨_, _, .opens unnumbered room hend⟩
    | true => exact ⟨_, _, .opensAndCloses unnumbered room hend⟩
  · cases hend : bar.has .repeatEnd with
    | false => exact ⟨_, _, .lengthens unnumbered unstarted hend⟩
    | true => exact ⟨_, _, .lengthensAndCloses unnumbered unstarted hend⟩
  · exact absurd ⟨run, start, rfl⟩ (hunmarked started)

/-- Behind the regions of a tidy grouping, a number is taken that continues the one that is open. -/
theorem IsTidy.exists_takes_of_numbered {number : Nat} (tidy : IsTidy closed pending)
    (hnumber : bar.variation = some number) (hne : pending.onTop closed ≠ [])
    (hcontinues : Continues pending.number? number) :
    ∃ closed' pending', Takes bar position closed pending closed' pending' := by
  cases pending with
  | nothing =>
    obtain ⟨latest, rest, rfl⟩ := List.exists_cons_of_ne_nil hne
    obtain ⟨run, rfl⟩ := tidy.ended rfl latest rfl
    obtain rfl : number = 1 := hcontinues
    exact ⟨_, _, .beginsAfterRepeat hnumber⟩
  | run run marked start =>
    obtain rfl : number = 1 := hcontinues
    exact ⟨_, _, .beginsAfterRun hnumber⟩
  | variations common earlier current =>
    rcases hcontinues with rfl | rfl
    · exact ⟨_, _, .grows hnumber⟩
    · exact ⟨_, _, .advances hnumber⟩

/-- The number of a bar continues the bar before it just if it comes behind a region and continues
the number that is open. -/
theorem continuesPrevious_iff (hstate : bars.foldlM add start = .ok state) :
    ContinuesPrevious bars bar ↔ ∀ number, bar.variation = some number →
      state.pending.onTop state.closed ≠ [] ∧ Continues state.pending.number? number := by
  obtain ⟨tidy, hbars, -⟩ := foldlM_add_start_eq_ok_iff.mp hstate
  have hlast : ∀ previous, bars.getLast? = some previous →
      previous.variation = state.pending.number? := by
    intro previous hprevious
    rw [← hbars] at hprevious
    exact tidy.variation_eq_number? hprevious
  refine forall₂_congr fun number hnumber ↦ ?_
  constructor
  · rintro ⟨previous, hprevious, hcontinues⟩
    rw [hlast previous hprevious] at hcontinues
    refine ⟨fun hnil ↦ ?_, hcontinues⟩
    rw [regions, hnil, List.reverse_nil, List.flatMap_nil] at hbars
    rw [← hbars] at hprevious
    cases hprevious
  · rintro ⟨hne, hcontinues⟩
    cases hprevious : bars.getLast? with
    | none =>
      rw [List.getLast?_eq_none_iff.mp hprevious] at hbars
      obtain ⟨hclosed, hpending⟩ := eq_nil_of_flatMap_bars_eq_nil hbars
      rw [hclosed, hpending] at hne
      exact absurd rfl hne
    | some previous =>
      exact ⟨previous, rfl, by rwa [hlast previous hprevious]⟩

/-- A grouping accepts a bar just if the bars before admit it. -/
theorem exists_add_eq_ok_iff (hstate : bars.foldlM add start = .ok state) :
    (∃ next, state.add bar = .ok next) ↔ Admits bars bar := by
  obtain ⟨tidy, -, -, hoffered, -⟩ := foldlM_add_start_eq_ok_iff.mp hstate
  have hopen := isMarked_iff_hasOpenRepeat hstate
  constructor
  · rintro ⟨next, hnext⟩
    obtain ⟨hfresh, closed, pending, htakes, -⟩ := add_eq_ok_iff.mp hnext
    refine ⟨by rwa [hoffered] at hfresh, (continuesPrevious_iff hstate).mpr ?_, ?_⟩
    · exact fun number hnumber ↦ htakes.continues hnumber
    · intro hstart
      rw [← hopen]
      exact htakes.not_isMarked hstart
  · rintro ⟨hfresh, hnumbered, hstarted⟩
    rw [continuesPrevious_iff hstate] at hnumbered
    rw [← hopen] at hstarted
    rw [← hoffered] at hfresh
    have htakes : ∃ closed pending,
        Takes bar state.offered.length state.closed state.pending closed pending := by
      cases hvariation : bar.variation with
      | none => exact exists_takes_of_unnumbered hvariation hstarted
      | some number =>
        obtain ⟨hne, hcontinues⟩ := hnumbered number hvariation
        exact tidy.exists_takes_of_numbered hvariation hne hcontinues
    obtain ⟨closed, pending, htakes⟩ := htakes
    exact ⟨_, add_eq_ok_iff.mpr ⟨hfresh, closed, pending, htakes, rfl⟩⟩

/-- Bars are accepted one after the other just if each is admitted by those before it. -/
theorem exists_foldlM_add_eq_ok_iff :
    (∃ last, bars.foldlM add start = .ok last) ↔ EachAfter Admits bars := by
  induction bars using List.reverseRecOn with
  | nil => simp [EachAfter, pure, Except.pure]
  | append_singleton bars bar ih =>
    rw [eachAfter_concat_iff, ← ih]
    constructor
    · rintro ⟨last, hlast⟩
      obtain ⟨middle, hmiddle, hadd⟩ := foldlM_concat_eq_ok_iff.mp hlast
      exact ⟨⟨middle, hmiddle⟩, (exists_add_eq_ok_iff hmiddle).mp ⟨last, hadd⟩⟩
    · rintro ⟨⟨middle, hmiddle⟩, hadmits⟩
      obtain ⟨last, hadd⟩ := (exists_add_eq_ok_iff hmiddle).mpr hadmits
      exact ⟨last, foldlM_concat_eq_ok_iff.mpr ⟨middle, hmiddle, hadd⟩⟩

/-- Bars that are accepted one after the other make a score just if there are any and no repeat is
open. -/
theorem exists_ofBars_eq_ok_iff (hstate : bars.foldlM add start = .ok state) :
    (∃ piece, Structure.ofBars bars = .ok piece) ↔ bars ≠ [] ∧ ¬ state.pending.IsMarked := by
  obtain ⟨-, hbars, -⟩ := foldlM_add_start_eq_ok_iff.mp hstate
  constructor
  · rintro ⟨piece, hpiece⟩
    obtain ⟨last, hlast, hunmarked, regions, hregions, -⟩ := ofBars_eq_ok_iff.mp hpiece
    obtain rfl : state = last := Except.ok.inj (hstate.symm.trans hlast)
    refine ⟨?_, hunmarked⟩
    rintro rfl
    rw [← hregions, List.flatMap_eq_nil_iff] at hbars
    exact regions.head.bars_ne_nil (hbars regions.head List.mem_cons_self)
  · rintro ⟨hne, hunmarked⟩
    cases hregions : state.regions with
    | nil =>
      rw [hregions] at hbars
      exact absurd hbars.symm hne
    | cons first rest =>
      exact ⟨_, ofBars_eq_ok_iff.mpr ⟨state, hstate, hunmarked, ⟨first, rest⟩, hregions.symm, rfl⟩⟩

/-- A score has a structure just if it is grammatical. -/
theorem exists_ofBars_eq_ok_iff_isGrammatical :
    (∃ piece, Structure.ofBars bars = .ok piece) ↔ IsGrammatical bars := by
  rw [isGrammatical_iff, ← exists_foldlM_add_eq_ok_iff]
  constructor
  · rintro ⟨piece, hpiece⟩
    obtain ⟨last, hlast, -⟩ := ofBars_eq_ok_iff.mp hpiece
    obtain ⟨hne, hunmarked⟩ := (exists_ofBars_eq_ok_iff hlast).mp ⟨piece, hpiece⟩
    rw [isMarked_iff_hasOpenRepeat hlast] at hunmarked
    exact ⟨hne, ⟨last, hlast⟩, hunmarked⟩
  · rintro ⟨hne, ⟨last, hlast⟩, hopen⟩
    rw [← isMarked_iff_hasOpenRepeat hlast] at hopen
    exact (exists_ofBars_eq_ok_iff hlast).mpr ⟨hne, hopen⟩

/-! ### Refusal -/

/-- A score is refused at one of its bars, or after all of them. -/
theorem ofBars_eq_error_iff {refusal : Refusal} :
    Structure.ofBars bars = .error refusal ↔ bars.foldlM add start = .error refusal ∨
      ∃ last, bars.foldlM add start = .ok last ∧ last.build = .error refusal := by
  unfold Structure.ofBars
  cases bars.foldlM add start with
  | error other => simp
  | ok last => simp [map_eq_error_iff]

/-- A score is refused for a repeated id or for its form. -/
theorem rule_of_ofBars_eq_error {violation : Violation}
    (h : Structure.ofBars bars = .error (.violation violation)) :
    violation.rule = .duplicateBarId ∨ violation.rule = .malformedStructure := by
  rcases ofBars_eq_error_iff.mp h with hbars | ⟨last, -, hbuild⟩
  · obtain ⟨_, bar, _, _, -, -, hbar⟩ := foldlM_eq_error_iff.mp hbars
    obtain ⟨found, hrefuses, htold⟩ := exists_refuses_of_add_eq_error hbar
    obtain ⟨-, rfl⟩ := Violation.refusal_eq_violation_iff.mp htold
    exact hrefuses.rule_eq
  · rcases of_build_eq_error hbuild with hsame | ⟨run, start, -, hsame⟩
    · rw [Refusal.violation.inj hsame]
      exact .inr rfl
    · rw [Refusal.violation.inj hsame]
      exact .inr rfl

/-- A bar is refused with a number that is too long to be told just if it has such a number and a new
id, and the number does not continue the bar before. -/
theorem add_eq_unwritable_iff (hstate : bars.foldlM add start = .ok state) :
    state.add bar = .error .unwritable ↔
      bar.id ∉ bars.map Bar.id ∧ ¬ ContinuesPrevious bars bar ∧
        ∃ number, bar.variation = some number ∧ Numeral.isWritable number = false := by
  obtain ⟨-, -, -, hoffered, -⟩ := foldlM_add_start_eq_ok_iff.mp hstate
  have haccepts := @exists_add_eq_ok_iff bar bars state hstate
  constructor
  · intro h
    obtain ⟨violation, hrefuses, htold⟩ := exists_refuses_of_add_eq_error h
    obtain ⟨hfresh, number, hnumber, hlong⟩ :=
      hrefuses.isWritable_eq_false_iff.mp (Violation.refusal_eq_unwritable_iff.mp htold)
    rw [hoffered] at hfresh
    refine ⟨hfresh, fun hcontinues ↦ ?_, number, hnumber, hlong⟩
    have hunstarted : bar.has .repeatStart = false :=
      Bar.has_repeatStart_eq_false (by simp [hnumber])
    obtain ⟨next, hnext⟩ := haccepts.mpr ⟨hfresh, hcontinues, by simp [hunstarted]⟩
    rw [hnext] at h
    cases h
  · rintro ⟨hfresh, hstray, hlong⟩
    have hfails (next : Grouping) : state.add bar ≠ .ok next := fun hnext ↦
      hstray (haccepts.mp ⟨next, hnext⟩).numbered
    obtain ⟨refusal, hrefused⟩ := exists_eq_error_of_ne_ok hfails
    obtain ⟨violation, hrefuses, rfl⟩ := exists_refuses_of_add_eq_error hrefused
    rw [← hoffered] at hfresh
    rw [hrefused, Violation.refusal_eq_unwritable_iff.mpr
      (hrefuses.isWritable_eq_false_iff.mpr ⟨hfresh, hlong⟩)]

/-- A score is refused with a number that is too long to be told just if it stops at such a number.
-/
theorem ofBars_eq_unwritable_iff :
    Structure.ofBars bars = .error .unwritable ↔ StopsAtLongNumber bars := by
  rw [ofBars_eq_error_iff]
  constructor
  · rintro (hbars | ⟨last, -, hbuild⟩)
    · obtain ⟨before, bar, after, middle, rfl, hbefore, hbar⟩ := foldlM_eq_error_iff.mp hbars
      obtain ⟨hfresh, hstray, number, hnumber, hlong⟩ := (add_eq_unwritable_iff hbefore).mp hbar
      exact ⟨before, bar, after, number, rfl, exists_foldlM_add_eq_ok_iff.mp ⟨middle, hbefore⟩,
        hfresh, hstray, hnumber, hlong⟩
    · rcases of_build_eq_error hbuild with hsame | ⟨_, _, -, hsame⟩ <;> cases hsame
  · rintro ⟨before, bar, after, number, rfl, hadmitted, hfresh, hstray, hnumber, hlong⟩
    obtain ⟨middle, hbefore⟩ := exists_foldlM_add_eq_ok_iff.mpr hadmitted
    refine .inl (foldlM_eq_error_iff.mpr ⟨before, bar, after, middle, rfl, hbefore, ?_⟩)
    exact (add_eq_unwritable_iff hbefore).mpr ⟨hfresh, hstray, number, hnumber, hlong⟩

/-! ### The first bar that cannot be made good -/

/-- There is always a bar with an id of its own that ends a repeat. -/
theorem exists_closing_bar (ids : List String) :
    ∃ bar : Bar, bar.id ∉ ids ∧ bar.variation = none ∧ bar.has .repeatStart = false ∧
      bar.has .repeatEnd = true := by
  obtain ⟨id, hid⟩ := Infinite.exists_notMem_finset ids.toFinset
  rw [List.mem_toFinset] at hid
  exact ⟨Structure.endingBar id, hid, rfl, rfl, rfl⟩

/-- Accepted bars can be completed, by no bar if no repeat is open and by one bar otherwise. -/
theorem exists_ofBars_append_eq_ok (hne : bars ≠ []) (hstate : bars.foldlM add start = .ok state) :
    ∃ more piece, Structure.ofBars (bars ++ more) = .ok piece := by
  by_cases hopen : HasOpenRepeat bars
  · obtain ⟨closing, hfresh, unnumbered, unstarted, ended⟩ := exists_closing_bar (bars.map Bar.id)
    have hadmits : Admits bars closing :=
      ⟨hfresh, by simp [ContinuesPrevious, unnumbered], by simp [unstarted]⟩
    obtain ⟨next, hnext⟩ := (exists_add_eq_ok_iff hstate).mpr hadmits
    have hall := foldlM_concat_eq_ok_iff.mpr ⟨state, hstate, hnext⟩
    refine ⟨[closing], (exists_ofBars_eq_ok_iff hall).mpr ⟨by simp, ?_⟩⟩
    rw [isMarked_iff_hasOpenRepeat hall, hasOpenRepeat_concat_iff]
    exact fun h ↦ h.1 (.inr ended)
  · rw [← isMarked_iff_hasOpenRepeat hstate] at hopen
    refine ⟨[], ?_⟩
    rw [List.append_nil]
    exact (exists_ofBars_eq_ok_iff hstate).mpr ⟨hne, hopen⟩

/-- A bar behind accepted ones is refused just if no bars after it make a score of them. -/
theorem exists_add_eq_error_iff (hstate : bars.foldlM add start = .ok state) :
    (∃ refusal, state.add bar = .error refusal) ↔
      ∀ more piece, Structure.ofBars (bars ++ bar :: more) ≠ .ok piece := by
  constructor
  · rintro ⟨refusal, hrefused⟩ more piece hpiece
    obtain ⟨last, hlast, -⟩ := ofBars_eq_ok_iff.mp hpiece
    rw [List.foldlM_append, hstate] at hlast
    simp only [bind, Except.bind, List.foldlM_cons, hrefused] at hlast
    cases hlast
  · intro hnone
    cases hadd : state.add bar with
    | error refusal => exact ⟨refusal, rfl⟩
    | ok next =>
      have hall := foldlM_concat_eq_ok_iff.mpr ⟨state, hstate, hadd⟩
      obtain ⟨more, piece, hpiece⟩ := exists_ofBars_append_eq_ok (by simp) hall
      rw [List.append_assoc, List.singleton_append] at hpiece
      exact absurd hpiece (hnone more piece)

end Grouping

/-- A score has a structure just if it is grammatical. Otherwise it is refused for a repeated id or for
its form, unless it stops at a number that is too long to be told; then only this is told. When its
bars are offered one after the other, the first that is refused is the first after which no further
bars would make a score. -/
theorem Structure.ofBars_accepts_isGrammatical (bars : List Bar) :
    ((∃ piece, ofBars bars = .ok piece) ↔ IsGrammatical bars) ∧
    (¬ IsGrammatical bars →
      StopsAtLongNumber bars ∧ ofBars bars = .error .unwritable ∨
      ¬ StopsAtLongNumber bars ∧ ∃ violation, ofBars bars = .error (.violation violation) ∧
        (violation.rule = .duplicateBarId ∨ violation.rule = .malformedStructure)) ∧
    ∀ (bar : Bar) (state : Grouping), bars.foldlM Grouping.add Grouping.start = .ok state →
      ((∃ refusal, state.add bar = .error refusal) ↔
        ∀ more piece, ofBars (bars ++ bar :: more) ≠ .ok piece) := by
  refine ⟨Grouping.exists_ofBars_eq_ok_iff_isGrammatical, fun hbars ↦ ?_,
    fun bar state hstate ↦ Grouping.exists_add_eq_error_iff hstate⟩
  rw [← Grouping.exists_ofBars_eq_ok_iff_isGrammatical] at hbars
  rw [← Grouping.ofBars_eq_unwritable_iff]
  cases hpiece : ofBars bars with
  | ok piece => exact absurd ⟨piece, hpiece⟩ hbars
  | error refusal =>
    cases refusal with
    | unwritable => exact .inl ⟨rfl, rfl⟩
    | violation violation =>
      exact .inr ⟨nofun, violation, rfl, Grouping.rule_of_ofBars_eq_error hpiece⟩

/-- A single bar of a variation with a long number continues nothing. -/
theorem Structure.stopsAtLongNumber_barOfLongNumber : StopsAtLongNumber [barOfLongNumber "A"] := by
  have hstray : ¬ ContinuesPrevious [] (barOfLongNumber "A") := fun hcontinues ↦ by
    obtain ⟨previous, hprevious, -⟩ := hcontinues _ rfl
    cases hprevious
  exact ⟨[], barOfLongNumber "A", [], _, rfl, by simp [EachAfter], List.not_mem_nil, hstray, rfl,
    isWritable_longNumber⟩

/-- The bar makes no score. It is refused, but for no rule. -/
theorem Structure.ofBars_barOfLongNumber :
    ¬ IsGrammatical [barOfLongNumber "A"] ∧
      ofBars [barOfLongNumber "A"] = .error .unwritable := by
  have hrefused := Grouping.ofBars_eq_unwritable_iff.mpr stopsAtLongNumber_barOfLongNumber
  refine ⟨fun hgrammatical ↦ ?_, hrefused⟩
  obtain ⟨piece, hpiece⟩ := Grouping.exists_ofBars_eq_ok_iff_isGrammatical.mpr hgrammatical
  rw [hrefused] at hpiece
  cases hpiece

end ScoreRepeats
