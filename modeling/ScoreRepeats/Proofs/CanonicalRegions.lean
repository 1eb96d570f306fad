import Mathlib.Data.List.Chain
import ScoreRepeats.Proofs.GroupingStep

/-!
# Canonical regions

A list of regions is canonical (`IsCanonical`) if its marks stand where the regions begin and end. A
straight region has bars without marks and gives way only to a region that a repeat start opens; a
repeat ends at its only repeat end and may begin with a repeat start; what variations share is such a
repeat, or a run that may begin with a repeat start; and the bars of each variation carry its number.

What holds of a run is told here from its last bar: when a bar alone makes an open run, a repeat or a
run of a number, and when one more bar does (`BarRun.isOpen_push_iff`, `BarRun.isRepeat_push_iff`,
`BarRun.isNumbered_push_iff`, `isNumberedFromOne_concat_iff`).
-/

set_option autoImplicit false
set_option relaxedAutoImplicit false

namespace ScoreRepeats

namespace NonemptyList

variable {α : Type} {items : NonemptyList α} {item : α} {p : α → Prop}

/-- A non-empty list has one element, or one more than another. -/
theorem eq_singleton_or_push (items : NonemptyList α) :
    (∃ item, items = ⟨item, []⟩) ∨ ∃ earlier item, items = push earlier item := by
  obtain ⟨head, tail⟩ := items
  rcases List.eq_nil_or_concat tail with rfl | ⟨earlier, item, rfl⟩
  · exact .inl ⟨head, rfl⟩
  · exact .inr ⟨⟨head, earlier⟩, item, by simp [push]⟩

/-- What holds of all elements after one is added holds of those before and of the new one. -/
theorem forall_mem_push_iff :
    (∀ element ∈ (items.push item).toList, p element) ↔
      (∀ element ∈ items.toList, p element) ∧ p item := by
  rw [toList_push, List.forall_mem_append, List.forall_mem_singleton]

/-- The same for all elements but the first. -/
theorem forall_mem_tail_push_iff :
    (∀ element ∈ (items.push item).tail, p element) ↔
      (∀ element ∈ items.tail, p element) ∧ p item := by
  rw [push, List.forall_mem_append, List.forall_mem_singleton]

/-- Without the element that was added last, a list is as before. -/
theorem init_push : (items.push item).init = items.toList := by
  rw [init, toList_push, List.dropLast_concat]

/-- The element that was added last is the last one. -/
theorem last_push : (items.push item).last = item := by
  have hlast : some (items.push item).last = some item := by
    rw [← getLast?_toList, toList_push, List.getLast?_concat]
  exact Option.some.inj hlast

end NonemptyList

/-! ### Runs -/

namespace BarRun

/-- Bars without a number and without repeat marks. -/
def IsUnmarked (run : BarRun) : Prop :=
  ∀ bar ∈ run.toList,
    bar.variation = none ∧ bar.has .repeatStart = false ∧ bar.has .repeatEnd = false

/-- Bars without a number and without a repeat end, of which only the first may start a repeat. -/
structure IsOpen (run : BarRun) : Prop where
  unnumbered : ∀ bar ∈ run.toList, bar.variation = none
  unended : ∀ bar ∈ run.toList, bar.has .repeatEnd = false
  unstarted : ∀ bar ∈ run.tail, bar.has .repeatStart = false

/-- Bars without a number, of which the last and no other ends a repeat and only the first may start
one. -/
structure IsRepeat (run : BarRun) : Prop where
  unnumbered : ∀ bar ∈ run.toList, bar.variation = none
  ended : run.last.has .repeatEnd = true
  unended : ∀ bar ∈ run.init, bar.has .repeatEnd = false
  unstarted : ∀ bar ∈ run.tail, bar.has .repeatStart = false

/-- Bars of a variation with this number. -/
def IsNumbered (run : BarRun) (number : Nat) : Prop :=
  ∀ bar ∈ run.toList, bar.variation = some number

variable {run : BarRun} {bar : Bar}

/-- A run without marks is an open run whose first bar does not start a repeat. -/
theorem isUnmarked_iff : run.IsUnmarked ↔ run.IsOpen ∧ run.head.has .repeatStart = false := by
  constructor
  · intro h
    have hhead : run.head ∈ run.toList := List.mem_cons_self
    exact ⟨⟨fun bar hbar ↦ (h bar hbar).1, fun bar hbar ↦ (h bar hbar).2.2,
      fun bar hbar ↦ (h bar (List.mem_cons_of_mem _ hbar)).2.1⟩, (h _ hhead).2.1⟩
  · rintro ⟨hopen, hhead⟩ bar hbar
    refine ⟨hopen.unnumbered bar hbar, ?_, hopen.unended bar hbar⟩
    rcases List.mem_cons.mp hbar with rfl | htail
    · exact hhead
    · exact hopen.unstarted bar htail

/-- One bar is an open run if it has no number and ends no repeat. -/
theorem isOpen_singleton_iff :
    IsOpen ⟨bar, []⟩ ↔ bar.variation = none ∧ bar.has .repeatEnd = false := by
  constructor
  · intro h
    exact ⟨h.unnumbered bar List.mem_cons_self, h.unended bar List.mem_cons_self⟩
  · rintro ⟨unnumbered, unended⟩
    exact ⟨by simpa [NonemptyList.toList], by simpa [NonemptyList.toList], by simp⟩

/-- An open run with one more bar stays open if the bar has no number and no repeat mark. -/
theorem isOpen_push_iff : IsOpen (run.push bar) ↔
    run.IsOpen ∧ bar.variation = none ∧ bar.has .repeatEnd = false ∧
      bar.has .repeatStart = false := by
  constructor
  · rintro ⟨unnumbered, unended, unstarted⟩
    rw [NonemptyList.forall_mem_push_iff] at unnumbered unended
    rw [NonemptyList.forall_mem_tail_push_iff] at unstarted
    exact ⟨⟨unnumbered.1, unended.1, unstarted.1⟩, unnumbered.2, unended.2, unstarted.2⟩
  · rintro ⟨hopen, unnumbered, unended, unstarted⟩
    exact ⟨NonemptyList.forall_mem_push_iff.mpr ⟨hopen.unnumbered, unnumbered⟩,
      NonemptyList.forall_mem_push_iff.mpr ⟨hopen.unended, unended⟩,
      NonemptyList.forall_mem_tail_push_iff.mpr ⟨hopen.unstarted, unstarted⟩⟩

/-- One bar is a repeat if it has no number and ends a repeat. -/
theorem isRepeat_singleton_iff :
    IsRepeat ⟨bar, []⟩ ↔ bar.variation = none ∧ bar.has .repeatEnd = true := by
  constructor
  · intro h
    exact ⟨h.unnumbered bar List.mem_cons_self, h.ended⟩
  · rintro ⟨unnumbered, ended⟩
    exact ⟨by simpa [NonemptyList.toList], ended, by simp [NonemptyList.init, NonemptyList.toList],
      by simp⟩

/-- A longer repeat is an open run with one more bar, which ends the repeat. -/
theorem isRepeat_push_iff : IsRepeat (run.push bar) ↔
    run.IsOpen ∧ bar.variation = none ∧ bar.has .repeatEnd = true ∧
      bar.has .repeatStart = false := by
  constructor
  · rintro ⟨unnumbered, ended, unended, unstarted⟩
    rw [NonemptyList.forall_mem_push_iff] at unnumbered
    rw [NonemptyList.last_push] at ended
    rw [NonemptyList.init_push] at unended
    rw [NonemptyList.forall_mem_tail_push_iff] at unstarted
    exact ⟨⟨unnumbered.1, unended, unstarted.1⟩, unnumbered.2, ended, unstarted.2⟩
  · rintro ⟨hopen, unnumbered, ended, unstarted⟩
    refine ⟨NonemptyList.forall_mem_push_iff.mpr ⟨hopen.unnumbered, unnumbered⟩, ?_, ?_,
      NonemptyList.forall_mem_tail_push_iff.mpr ⟨hopen.unstarted, unstarted⟩⟩
    · rwa [NonemptyList.last_push]
    · rw [NonemptyList.init_push]
      exact hopen.unended

/-- One bar is a run of a number if it carries it. -/
theorem isNumbered_singleton_iff {number : Nat} :
    IsNumbered ⟨bar, []⟩ number ↔ bar.variation = some number := by
  simp [IsNumbered, NonemptyList.toList]

/-- A run of a number with one more bar is one if the bar carries the number too. -/
theorem isNumbered_push_iff {number : Nat} :
    IsNumbered (run.push bar) number ↔
      run.IsNumbered number ∧ bar.variation = some number :=
  NonemptyList.forall_mem_push_iff

end BarRun

/-! ### Regions -/

/-- What variations share: an open run, or a repeat. -/
def Passage.IsShared : Passage → Prop
  | .straight run => run.IsOpen
  | .repeated run => run.IsRepeat

/-- Variations that are numbered from one. -/
def IsNumberedFromOne (variations : List BarRun) : Prop :=
  ∀ (index : Nat) (variation : BarRun), variations[index]? = some variation →
    variation.IsNumbered (index + 1)

/-- Variations are numbered from one if the last has the number after the others. -/
theorem isNumberedFromOne_concat_iff {earlier : List BarRun} {current : BarRun} :
    IsNumberedFromOne (earlier ++ [current]) ↔
      IsNumberedFromOne earlier ∧ current.IsNumbered (earlier.length + 1) := by
  constructor
  · intro h
    refine ⟨fun index variation hat ↦ h index variation ?_, h _ _ List.getElem?_concat_length⟩
    rw [List.getElem?_append_left (List.getElem?_eq_some_iff.mp hat).1, hat]
  · rintro ⟨hearlier, hcurrent⟩ index variation hat
    rcases Nat.lt_or_ge index earlier.length with hlt | hge
    · rw [List.getElem?_append_left hlt] at hat
      exact hearlier index variation hat
    · rw [List.getElem?_append_right hge, List.getElem?_singleton] at hat
      split_ifs at hat with hzero
      obtain rfl := Option.some.inj hat
      rwa [show index = earlier.length by omega]

/-- One variation of one bar is numbered from one if the bar carries the number one. -/
theorem isNumberedFromOne_singleton_iff {bar : Bar} :
    IsNumberedFromOne [⟨bar, []⟩] ↔ bar.variation = some 1 := by
  have hnil : IsNumberedFromOne [] := by
    intro index variation hat
    simp at hat
  have hconcat := @isNumberedFromOne_concat_iff [] ⟨bar, []⟩
  rw [List.nil_append, List.length_nil, BarRun.isNumbered_singleton_iff] at hconcat
  exact hconcat.trans (and_iff_right hnil)

namespace Region

/-- A region whose marks stand where it begins and ends. -/
def IsCanonical : Region → Prop
  | .plain (.straight run) => run.IsUnmarked
  | .plain (.repeated run) => run.IsRepeat
  | .varied common variations => common.IsShared ∧ IsNumberedFromOne variations.toList

/-- A region that may stand before another: if it is straight, a repeat start opens the other. -/
def Precedes (first second : Region) : Prop :=
  (∃ run, first = .plain (.straight run)) → second.firstBar.has .repeatStart = true

/-- The first bar stays when bars are added at the end. -/
theorem firstBar_eq_of_bars_append {first second : Region} {more : List Bar}
    (h : second.bars = first.bars ++ more) : second.firstBar = first.firstBar := by
  have hhead : second.bars.head? = first.bars.head? := by
    rw [h, List.head?_append, first.head?_bars, Option.some_or]
  rw [first.head?_bars, second.head?_bars] at hhead
  exact Option.some.inj hhead

end Region

/-- Regions each of which is canonical and may stand before the next. -/
structure IsCanonical (regions : List Region) : Prop where
  each : ∀ region ∈ regions, region.IsCanonical
  joined : regions.IsChain Region.Precedes

end ScoreRepeats
