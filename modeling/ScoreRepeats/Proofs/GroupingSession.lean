import ScoreRepeats.Proofs.CanonicalGrouping
import ScoreRepeats.Proofs.GroupingRefusal

/-!
# Sessions with a grouping

In a session a grouping is asked, in any order, to take bars and to give the structure of the bars
so far, and it goes on after whatever it refuses. All that it remembers can be told from the bars
that were fed and from those of them that were accepted (`Grouping.Records`): its regions are made
of the accepted bars, which also decide the kind, while ids and positions are those of all bars that
were fed. Every request keeps this so (`Grouping.Records.respond`), and hence it holds after every
session (`Grouping.records_after_start`).

What a grouping answers next follows from this (`Grouping.AnswersFor`): the structures that it gives
have just the accepted bars, refusals do not show in them, and violations point at bars by their
places among all bars that were fed.
-/

set_option autoImplicit false
set_option relaxedAutoImplicit false

namespace ScoreRepeats

/-- The first bar of an open repeat and its position, if the violation is about one. -/
def Violation.openRepeat? : Violation → Option (String × Nat)
  | .repeatInsideRepeat id start _ | .repeatNeverClosed id start => some (id, start)
  | _ => none

namespace Grouping

/-! ### Sessions -/

/-- The bar that a request offers. -/
def Request.bar? : Request → Option Bar
  | .offer bar => some bar
  | .build => none

/-- All bars that some requests offer, in order. -/
def fedBars (requests : List Request) : List Bar := requests.filterMap Request.bar?

/-- Some requests with their answers. -/
def answered (state : Grouping) : List Request → List (Request × Answer)
  | [] => []
  | request :: rest =>
    (request, (state.respond request).2) :: (state.respond request).1.answered rest

/-- The bar that was offered, if it was accepted. -/
def takenBar? : Request × Answer → Option Bar
  | (.offer bar, .accepted) => some bar
  | _ => none

/-- The bars of a session that were accepted, in order. -/
def acceptedBars (requests : List Request) : List Bar :=
  (start.answered requests).filterMap takenBar?

theorem after_concat (state : Grouping) (requests : List Request) (request : Request) :
    state.after (requests ++ [request]) = ((state.after requests).respond request).1 := by
  rw [after, List.foldl_append]
  rfl

/-- The last request is answered after the others. -/
theorem answered_concat (state : Grouping) (requests : List Request) (request : Request) :
    state.answered (requests ++ [request]) =
      state.answered requests ++ [(request, ((state.after requests).respond request).2)] := by
  induction requests generalizing state with
  | nil => rfl
  | cons first rest ih =>
    rw [List.cons_append, answered, ih]
    rfl

theorem fedBars_concat (requests : List Request) (request : Request) :
    fedBars (requests ++ [request]) = fedBars requests ++ request.bar?.toList := by
  rw [fedBars, List.filterMap_append, List.filterMap_cons, List.filterMap_nil]
  cases request <;> rfl

theorem acceptedBars_concat (requests : List Request) (request : Request) :
    acceptedBars (requests ++ [request]) = acceptedBars requests ++
      (takenBar? (request, ((start.after requests).respond request).2)).toList := by
  rw [acceptedBars, answered_concat, List.filterMap_append, List.filterMap_cons, List.filterMap_nil]
  cases takenBar? (request, ((start.after requests).respond request).2) <;> rfl

/-! ### What a grouping remembers -/

/-- What a grouping remembers, told from the bars that were fed and those that were accepted. -/
structure Records (state : Grouping) (fed accepted : List Bar) : Prop where
  offered : state.offered = fed.map Bar.id
  sublist : accepted.Sublist fed
  distinct : (accepted.map Bar.id).Nodup
  written : state.regions.flatMap Region.bars = accepted
  kind : state.kind = Kind.ofBars accepted
  opened : ∀ run marked start, state.pending = .run run marked start →
    fed[start]? = some run.head ∧ marked = run.head.has .repeatStart

variable {state : Grouping} {fed accepted : List Bar} {bar : Bar}
variable {closed closed' : List Region} {pending pending' : Pending}

theorem records_start : Records start [] [] where
  offered := rfl
  sublist := List.Sublist.refl _
  distinct := List.nodup_nil
  written := rfl
  kind := rfl
  opened := by
    intro run marked start hpending
    cases hpending

/-- What stands at a place still stands there when one more bar is fed. -/
theorem getElem?_concat_of_eq_some {first : Bar} {place : Nat} (hplace : fed[place]? = some first)
    (bar : Bar) : (fed ++ [bar])[place]? = some first := by
  have hlt : place < fed.length := (List.getElem?_eq_some_iff.mp hplace).1
  rw [List.getElem?_append_left hlt, hplace]

/-- A run that a taken bar opens starts with the bar, and one that it lengthens keeps its start. -/
theorem Takes.opened (h : Takes bar fed.length closed pending closed' pending')
    (hopened : ∀ run marked start, pending = .run run marked start →
      fed[start]? = some run.head ∧ marked = run.head.has .repeatStart) :
    ∀ run marked start, pending' = .run run marked start →
      (fed ++ [bar])[start]? = some run.head ∧ marked = run.head.has .repeatStart := by
  intro run marked start hrun
  cases h with
  | opens =>
    cases hrun
    exact ⟨List.getElem?_concat_length, rfl⟩
  | lengthens =>
    cases hrun
    obtain ⟨hfirst, hmarked⟩ := hopened _ _ _ rfl
    exact ⟨getElem?_concat_of_eq_some hfirst bar, hmarked⟩
  | opensAndCloses => cases hrun
  | lengthensAndCloses => cases hrun
  | beginsAfterRun => cases hrun
  | beginsAfterRepeat => cases hrun
  | grows => cases hrun
  | advances => cases hrun

/-- Among all bars that were fed, one more is remembered if it was taken. -/
theorem Records.accept (h : Records state fed accepted) (hnew : bar.id ∉ state.offered)
    (htakes : Takes bar state.offered.length state.closed state.pending closed pending) :
    Records ⟨state.offered ++ [bar.id], closed, pending, kindWith state.kind bar⟩ (fed ++ [bar])
      (accepted ++ [bar]) where
  offered := by rw [h.offered, List.map_append, List.map_singleton]
  sublist := h.sublist.append (List.Sublist.refl _)
  distinct := by
    rw [h.offered] at hnew
    exact nodup_ids_concat_iff.mpr
      ⟨fun hmem ↦ hnew ((h.sublist.map Bar.id).subset hmem), h.distinct⟩
  written := by
    rw [← h.written]
    exact htakes.flatMap_bars
  kind := by rw [kind_ofBars_concat, h.kind]
  opened := by
    rw [h.offered, List.length_map] at htakes
    exact htakes.opened h.opened

/-- A refused bar is counted among those that were fed. -/
theorem Records.remember (h : Records state fed accepted) (bar : Bar) :
    Records (state.remember bar) (fed ++ [bar]) accepted where
  offered := by
    rw [List.map_append, List.map_singleton, ← h.offered]
    rfl
  sublist := h.sublist.trans (List.sublist_append_left _ _)
  distinct := h.distinct
  written := h.written
  kind := h.kind
  opened := by
    intro run marked start hpending
    obtain ⟨hfirst, hmarked⟩ := h.opened run marked start hpending
    exact ⟨getElem?_concat_of_eq_some hfirst bar, hmarked⟩

/-- Closing all regions changes nothing that is remembered of the bars. -/
theorem Records.settled (h : Records state fed accepted) : Records state.settled fed accepted where
  offered := h.offered
  sublist := h.sublist
  distinct := h.distinct
  written := h.written
  kind := h.kind
  opened := by
    intro run marked start hpending
    cases hpending

/-- Every request keeps what is remembered in step with the bars. -/
theorem Records.respond (h : Records state fed accepted) (request : Request) :
    Records (state.respond request).1 (fed ++ request.bar?.toList)
      (accepted ++ (takenBar? (request, (state.respond request).2)).toList) := by
  cases request with
  | offer bar =>
    rcases respond_offer state bar with
      ⟨closed, pending, hnew, htakes, hrespond⟩ | ⟨violation, -, hrespond⟩
    · rw [hrespond]
      exact h.accept hnew htakes
    · have hnone : takenBar? (.offer bar, .refused violation.refusal) = none := rfl
      rw [hrespond, hnone, Option.toList_none, List.append_nil]
      exact h.remember bar
  | build =>
    have hnone : accepted ++ (takenBar? (.build, (state.respond .build).2)).toList = accepted :=
      List.append_nil _
    rw [hnone, show fed ++ Request.build.bar?.toList = fed from List.append_nil _]
    rcases isMarked_or_regions state with
      ⟨run, start, hrun⟩ | ⟨hclosed, hnil⟩ | ⟨hclosed, regions, hlist⟩
    · rw [respond_build_of_run hrun]
      exact h
    · rw [respond_build_of_regions_eq_nil hclosed hnil]
      exact h.settled
    · rw [respond_build_of_regions hclosed hlist]
      exact h.settled

/-- After every session, what is remembered is in step with the bars. -/
theorem records_after_start (requests : List Request) :
    Records (start.after requests) (fedBars requests) (acceptedBars requests) := by
  induction requests using List.reverseRecOn with
  | nil => exact records_start
  | append_singleton requests request ih =>
    rw [after_concat, fedBars_concat, acceptedBars_concat]
    exact ih.respond request

/-! ### What a grouping answers next -/

/-- What a grouping answers to the next requests, told from the bars that were fed and those that
were accepted. -/
structure AnswersFor (state : Grouping) (fed accepted : List Bar) : Prop where
  /-- A structure is made of the accepted bars, and they decide its kind. -/
  built : ∀ piece, (state.respond .build).2 = .built piece →
    piece.bars = accepted ∧ piece.ids.Nodup ∧ piece.kind = Kind.ofBars accepted
  /-- A refusal makes no difference to a structure that is asked for right after it. -/
  unchanged : ∀ request refusal, (state.respond request).2 = .refused refusal →
    ((state.respond request).1.respond .build).2 = (state.respond .build).2
  /-- A structure that is asked for twice is given twice, or refused twice. -/
  again : ((state.respond .build).1.respond .build).2 = (state.respond .build).2
  /-- A bar is refused for its id just if a bar with this id was fed before. -/
  known : ∀ bar, (∃ violation, (state.respond (.offer bar)).2 = .refused (.violation violation) ∧
    violation.rule = .duplicateBarId) ↔ bar.id ∈ fed.map Bar.id
  /-- The positions of a violation are places among the bars that were fed. -/
  within : ∀ request violation, (state.respond request).2 = .refused (.violation violation) →
    ∀ p ∈ violation.positions, p < (fed ++ request.bar?.toList).length
  /-- A refused bar is pointed at last, and the bar that had its id first is pointed at before. -/
  located : ∀ bar violation, (state.respond (.offer bar)).2 = .refused (.violation violation) →
    violation.positions.getLast? = some fed.length ∧
      (violation.rule = .duplicateBarId →
        violation.positions.head? = some ((fed.map Bar.id).idxOf bar.id))
  /-- The start of an open repeat is the place of the first bar of the open run. -/
  opened : ∀ request violation id start,
    (state.respond request).2 = .refused (.violation violation) →
    violation.openRepeat? = some (id, start) →
      ∃ run, state.pending = .run run true start ∧ run.toList <:+ accepted ∧
        fed[start]? = some run.head ∧ run.head.id = id ∧ run.head.has .repeatStart = true

/-- The bars of an open run are the last of those that were accepted. -/
theorem Records.toList_suffix (h : Records state fed accepted) {run : BarRun} {marked : Bool}
    {start : Nat} (hpending : state.pending = .run run marked start) : run.toList <:+ accepted := by
  have hregions : state.regions = state.closed.reverse ++ [.plain (.straight run)] := by
    rw [regions, hpending]
    exact List.reverse_cons
  rw [← h.written, hregions, List.flatMap_append, List.flatMap_singleton]
  exact List.suffix_append _ _

/-- The start of an open repeat is the place of the first bar of the run, which starts the repeat.
-/
theorem Records.openRepeat (h : Records state fed accepted) {run : BarRun} {start : Nat}
    (hpending : state.pending = .run run true start) :
    run.toList <:+ accepted ∧ fed[start]? = some run.head ∧ run.head.has .repeatStart = true := by
  obtain ⟨hplace, hmarked⟩ := h.opened run true start hpending
  exact ⟨h.toList_suffix hpending, hplace, hmarked.symm⟩

/-- A structure is made of the accepted bars. -/
theorem Records.built (h : Records state fed accepted) {piece : Structure}
    (hbuilt : (state.respond .build).2 = .built piece) :
    piece.bars = accepted ∧ piece.ids.Nodup ∧ piece.kind = Kind.ofBars accepted := by
  rcases isMarked_or_regions state with
    ⟨run, start, hrun⟩ | ⟨hclosed, hnil⟩ | ⟨hclosed, regions, hlist⟩
  · rw [respond_build_of_run hrun] at hbuilt
    cases hbuilt
  · rw [respond_build_of_regions_eq_nil hclosed hnil] at hbuilt
    cases hbuilt
  · rw [respond_build_of_regions hclosed hlist] at hbuilt
    cases hbuilt
    have hbars : (Structure.ofRegions regions state.kind).bars = accepted := by
      rw [Structure.bars, Structure.regions_ofRegions, hlist, h.written]
    refine ⟨hbars, ?_, h.kind⟩
    rw [Structure.ids, hbars]
    exact h.distinct

/-- A refusal leaves the next structure as it was. -/
theorem respond_build_of_refused {request : Request} {refusal : Refusal}
    (hrefused : (state.respond request).2 = .refused refusal) :
    ((state.respond request).1.respond .build).2 = (state.respond .build).2 := by
  cases request with
  | build => exact respond_build_build state
  | offer bar =>
    rcases respond_offer state bar with ⟨closed, pending, -, -, hrespond⟩ | ⟨other, -, hrespond⟩
    · rw [hrespond] at hrefused
      cases hrefused
    · rw [hrespond]
      exact respond_build_remember state bar

/-- A refused bar is refused in one of the ways in which bars are. -/
theorem refuses_of_respond_offer {violation : Violation}
    (hrefused : (state.respond (.offer bar)).2 = .refused (.violation violation)) :
    Refuses state bar violation := by
  rcases respond_offer state bar with ⟨closed, pending, -, -, hrespond⟩ | ⟨other, hother, hrespond⟩
  · rw [hrespond] at hrefused
    cases hrefused
  · rw [hrespond, Answer.refused.injEq, Violation.refusal_eq_violation_iff] at hrefused
    rwa [← hrefused.2]

/-- A refused structure is refused in one of the ways in which structures are. -/
theorem of_respond_build_refused {violation : Violation}
    (hrefused : (state.respond .build).2 = .refused (.violation violation)) :
    violation = .noBars ∨ ∃ run start, state.pending = .run run true start ∧
      violation = .repeatNeverClosed run.head.id start := by
  cases hbuild : state.build with
  | error other =>
    simp only [respond, hbuild, Answer.refused.injEq] at hrefused
    rw [hrefused] at hbuild
    simpa only [Refusal.violation.injEq] using of_build_eq_error hbuild
  | ok built =>
    simp only [respond, hbuild] at hrefused
    cases hrefused

/-- A bar is refused for its id just if the id is that of a bar which was fed before. -/
theorem Records.known (h : Records state fed accepted) (bar : Bar) :
    (∃ violation, (state.respond (.offer bar)).2 = .refused (.violation violation) ∧
      violation.rule = .duplicateBarId) ↔ bar.id ∈ fed.map Bar.id := by
  rw [← h.offered]
  constructor
  · rintro ⟨violation, hrefused, hrule⟩
    exact (refuses_of_respond_offer hrefused).rule_eq_iff.mp hrule
  · intro hknown
    rcases respond_offer state bar with
      ⟨closed, pending, hnew, -, -⟩ | ⟨violation, hrefuses, hrespond⟩
    · exact absurd hknown hnew
    · have hwritable : violation.isWritable = true := by
        rw [← Bool.not_eq_false, hrefuses.isWritable_eq_false_iff]
        exact fun h ↦ h.1 hknown
      refine ⟨violation, ?_, hrefuses.rule_eq_iff.mpr hknown⟩
      rw [hrespond, Violation.refusal_eq_violation_iff.mpr ⟨hwritable, rfl⟩]

/-- A refused bar is pointed at last. -/
theorem Refuses.getLast?_positions {violation : Violation} (h : Refuses state bar violation) :
    violation.positions.getLast? = some state.offered.length := by
  cases h <;> rfl

/-- A bar that is refused for its id is pointed at together with the first bar that had the id. -/
theorem Refuses.head?_positions {violation : Violation} (h : Refuses state bar violation)
    (hrule : violation.rule = .duplicateBarId) :
    violation.positions.head? = some (state.offered.idxOf bar.id) := by
  have hknown := h.rule_eq_iff.mp hrule
  cases h with
  | known => rfl
  | insideRepeat fresh => exact absurd hknown fresh
  | beforeFirst fresh => exact absurd hknown fresh
  | noCommon fresh => exact absurd hknown fresh
  | outOfTurn fresh => exact absurd hknown fresh

/-- A refusal that is about an open repeat is about the one that is open. -/
theorem exists_run_of_openRepeat {request : Request} {violation : Violation} {id : String}
    {start : Nat} (hrefused : (state.respond request).2 = .refused (.violation violation))
    (hopen : violation.openRepeat? = some (id, start)) :
    ∃ run, state.pending = .run run true start ∧ run.head.id = id := by
  cases request with
  | offer bar =>
    cases refuses_of_respond_offer hrefused with
    | known => cases hopen
    | insideRepeat _ _ _ hpending =>
      cases hopen
      exact ⟨_, hpending, rfl⟩
    | beforeFirst => cases hopen
    | noCommon => cases hopen
    | outOfTurn => cases hopen
  | build =>
    rcases of_respond_build_refused hrefused with rfl | ⟨run, place, hpending, rfl⟩
    · cases hopen
    · cases hopen
      exact ⟨run, hpending, rfl⟩

/-- The start of an open repeat is a place among the bars that were fed. -/
theorem Records.start_lt (h : Records state fed accepted) {run : BarRun} {start : Nat}
    (hpending : state.pending = .run run true start) : start < fed.length :=
  (List.getElem?_eq_some_iff.mp (h.openRepeat hpending).2.1).1

/-- The positions of a refusal are places among the bars that were fed, the refused one included. -/
theorem Records.lt_of_mem_positions (h : Records state fed accepted) {request : Request}
    {violation : Violation}
    (hrefused : (state.respond request).2 = .refused (.violation violation)) :
    ∀ p ∈ violation.positions, p < (fed ++ request.bar?.toList).length := by
  have hlength : state.offered.length = fed.length := by rw [h.offered, List.length_map]
  intro p hp
  cases request with
  | offer bar =>
    show p < (fed ++ [bar]).length
    rw [List.length_append, List.length_singleton, ← hlength]
    cases refuses_of_respond_offer hrefused with
    | known old =>
      have hfirst := List.idxOf_lt_length_of_mem old
      rcases List.mem_pair.mp hp with rfl | rfl
      · omega
      · omega
    | insideRepeat _ _ _ hpending =>
      have hstart := h.start_lt hpending
      rcases List.mem_pair.mp hp with rfl | rfl
      · omega
      · omega
    | beforeFirst => exact Nat.lt_succ_of_le (Nat.le_of_eq (List.mem_singleton.mp hp))
    | noCommon => exact Nat.lt_succ_of_le (Nat.le_of_eq (List.mem_singleton.mp hp))
    | outOfTurn => exact Nat.lt_succ_of_le (Nat.le_of_eq (List.mem_singleton.mp hp))
  | build =>
    show p < (fed ++ []).length
    rw [List.append_nil]
    rcases of_respond_build_refused hrefused with rfl | ⟨run, start, hpending, rfl⟩
    · cases hp
    · rw [List.mem_singleton.mp hp]
      exact h.start_lt hpending

/-- What is answered next follows from what is remembered. -/
theorem Records.answersFor (h : Records state fed accepted) : AnswersFor state fed accepted where
  built := fun _ hbuilt ↦ h.built hbuilt
  unchanged := fun _ _ hrefused ↦ respond_build_of_refused hrefused
  again := respond_build_build state
  known := h.known
  within := fun _ _ hrefused ↦ h.lt_of_mem_positions hrefused
  located := by
    intro bar violation hrefused
    have hrefuses := refuses_of_respond_offer hrefused
    have hlast := hrefuses.getLast?_positions
    have hfirst := hrefuses.head?_positions
    rw [h.offered] at hlast hfirst
    rw [List.length_map] at hlast
    exact ⟨hlast, hfirst⟩
  opened := by
    intro request violation id start hrefused hopen
    obtain ⟨run, hpending, hid⟩ := exists_run_of_openRepeat hrefused hopen
    obtain ⟨hsuffix, hplace, hstarts⟩ := h.openRepeat hpending
    exact ⟨run, hpending, hsuffix, hplace, hid, hstarts⟩

/-- After every session the next answers follow from the bars that were fed and accepted in it: the
structures have just the accepted bars, refusals leave them as they are, and violations count all
bars that were fed. -/
theorem answersFor_after_start (requests : List Request) :
    AnswersFor (start.after requests) (fedBars requests) (acceptedBars requests) :=
  (records_after_start requests).answersFor

/-- The open repeat starts with the third bar that was fed, though the second was refused. -/
example : (start.answered [.offer (Structure.endingBar "A"), .offer (Structure.endingBar "A"),
    .offer (Structure.markedBar "B" .repeatStart), .offer (Structure.markedBar "C" .repeatStart),
    .build]).map Prod.snd =
      [.accepted, .refused (.violation (.repeatedId "A" 0 1)), .accepted,
        .refused (.violation (.repeatInsideRepeat "B" 2 3)),
        .refused (.violation (.repeatNeverClosed "B" 2))] := by
  decide

end Grouping

end ScoreRepeats
