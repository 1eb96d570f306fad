import Mathlib.Data.Set.Function
import ScoreRepeats.Proofs.GroupingRefusal

/-!
# Recast bars

A recasting puts another bar in the place of each bar of a score (`Recasting`). The other bar may have
another id and another length, but it belongs to the same variation and carries the same marks of
navigation. Grouping asks of ids only whether two of them are the same, and asks for no length at
all. So if different ids stay different, and the repeat marks are kept on the bars that belong to no
variation (`Recasting.KeepsRepeats`), grouping goes on alike with the other bars: every bar is taken
or refused as before (`Grouping.add_recast`), and the whole score gets the same structure with the
other bars in it, or is refused for the same violation (`Structure.ofBars_map_bar`).
-/

set_option autoImplicit false
set_option relaxedAutoImplicit false

namespace ScoreRepeats

/-- The marks around a repeat, which are no marks of navigation. -/
def Marker.isRepeatMark : Marker → Bool
  | .repeatStart | .repeatEnd => true
  | _ => false

/-- Another bar in the place of each, under another name, but in the same variation and with the same
marks of navigation. -/
structure Recasting where
  bar : Bar → Bar
  rename : String → String
  id_bar : ∀ old, (bar old).id = rename old.id
  variation_bar : ∀ old, (bar old).variation = old.variation
  has_bar : ∀ old marker, marker.isRepeatMark = false → (bar old).has marker = old.has marker

/-- A recasting that keeps the repeat marks of the bars that belong to no variation. -/
structure Recasting.KeepsRepeats (recasting : Recasting) : Prop where
  starts : ∀ old, old.variation = none →
    (recasting.bar old).has .repeatStart = old.has .repeatStart
  ends : ∀ old, old.variation = none → (recasting.bar old).has .repeatEnd = old.has .repeatEnd

/-- A recasting under which these ids stay different. -/
def Recasting.Separates (recasting : Recasting) (ids : List String) : Prop :=
  Set.InjOn recasting.rename {id | id ∈ ids}

/-- Every bar as it is. -/
def Recasting.refl : Recasting where
  bar := id
  rename := id
  id_bar := fun _ ↦ rfl
  variation_bar := fun _ ↦ rfl
  has_bar := fun _ _ _ ↦ rfl

theorem Recasting.keepsRepeats_refl : Recasting.refl.KeepsRepeats where
  starts := fun _ _ ↦ rfl
  ends := fun _ _ ↦ rfl

/-! ### Other bars in the same places -/

def Passage.mapBars (f : Bar → Bar) : Passage → Passage
  | .straight run => .straight (run.map f)
  | .repeated run => .repeated (run.map f)

def Region.mapBars (f : Bar → Bar) : Region → Region
  | .plain passage => .plain (passage.mapBars f)
  | .varied common variations => .varied (common.mapBars f) (variations.map (NonemptyList.map f))

def Pending.mapBars (f : Bar → Bar) : Pending → Pending
  | .nothing => .nothing
  | .run bars marked start => .run (bars.map f) marked start
  | .variations common earlier current =>
    .variations (common.mapBars f) (earlier.map (NonemptyList.map f)) (current.map f)

def Structure.mapBars (f : Bar → Bar) (piece : Structure) : Structure where
  parts := piece.parts.map fun part ↦ ⟨part.label, part.region.mapBars f⟩
  kind := piece.kind

/-- A violation with other names for the bars in its message. -/
def Violation.rename (rename : String → String) : Violation → Violation
  | .repeatedId id first again => .repeatedId (rename id) first again
  | .variationBeforeFirst id number position => .variationBeforeFirst (rename id) number position
  | .noCommonPassage id position => .noCommonPassage (rename id) position
  | .variationOutOfTurn id number current position =>
    .variationOutOfTurn (rename id) number current position
  | .repeatInsideRepeat id start position => .repeatInsideRepeat (rename id) start position
  | .repeatNeverClosed id start => .repeatNeverClosed (rename id) start
  | .jumpNotLast id jumps => .jumpNotLast (rename id) jumps
  | .tooFewVariations id count position => .tooFewVariations (rename id) count position
  | violation => violation

/-- A refusal with other names for the bars in its message. -/
def Refusal.rename (rename : String → String) : Refusal → Refusal
  | .violation told => .violation (told.rename rename)
  | .unwritable => .unwritable

/-- A grouping of the other bars. -/
def Grouping.recast (recasting : Recasting) (state : Grouping) : Grouping where
  offered := state.offered.map recasting.rename
  closed := state.closed.map (Region.mapBars recasting.bar)
  pending := state.pending.mapBars recasting.bar
  kind := state.kind

@[simp] theorem Violation.rule_rename (rename : String → String) (violation : Violation) :
    (violation.rename rename).rule = violation.rule := by
  cases violation <;> rfl

@[simp] theorem Violation.positions_rename (rename : String → String) (violation : Violation) :
    (violation.rename rename).positions = violation.positions := by
  cases violation <;> rfl

/-- The numbers in a message do not depend on the names. -/
@[simp] theorem Violation.quantities_rename (rename : String → String) (violation : Violation) :
    (violation.rename rename).quantities = violation.quantities := by
  cases violation <;> rfl

/-- Under other names the same violations can be told. -/
@[simp] theorem Violation.rename_refusal (rename : String → String) (violation : Violation) :
    violation.refusal.rename rename = (violation.rename rename).refusal := by
  have hwritable : (violation.rename rename).isWritable = violation.isWritable := by
    rw [isWritable, isWritable, quantities_rename]
  rw [refusal, refusal, hwritable]
  split_ifs <;> rfl

namespace NonemptyList

variable {α β : Type} (f : α → β)

theorem map_push (items : NonemptyList α) (item : α) :
    (items.push item).map f = (items.map f).push (f item) :=
  ext (by simp)

theorem map_snoc (items : List α) (item : α) :
    (snoc items item).map f = snoc (items.map f) (f item) :=
  ext (by simp)

theorem last_map (items : NonemptyList α) : (items.map f).last = f items.last := by
  have hlast := (items.map f).getLast?_toList
  rw [toList_map, List.getLast?_map, getLast?_toList] at hlast
  exact (Option.some.inj hlast).symm

theorem init_map (items : NonemptyList α) : (items.map f).init = items.init.map f := by
  rw [init, init, toList_map, List.map_dropLast]

theorem length_map (items : NonemptyList α) : (items.map f).length = items.length := by
  rw [← length_toList, ← length_toList, toList_map, List.length_map]

theorem map_id (items : NonemptyList α) : items.map id = items :=
  ext (by rw [toList_map, List.map_id])

end NonemptyList

/-! ### Bars and regions -/

namespace Recasting

variable (recasting : Recasting)

/-- The other bar carries a jump instruction just if the old one does. -/
theorem hasJump_bar (old : Bar) : (recasting.bar old).hasJump = old.hasJump := by
  have hcapo := recasting.has_bar old .daCapo rfl
  have hsegno := recasting.has_bar old .dalSegno rfl
  rw [Bool.eq_iff_iff, Bar.hasJump_iff, Bar.hasJump_iff, hcapo, hsegno]

/-- A recasting that changes no id keeps all ids different. -/
theorem separates_of_rename_eq_id (h : recasting.rename = id) (ids : List String) :
    recasting.Separates ids := by
  unfold Separates
  rw [h]
  exact Set.injOn_id _

/-- The other bars have the other ids. -/
theorem map_id_map_bar (bars : List Bar) :
    (bars.map recasting.bar).map Bar.id = (bars.map Bar.id).map recasting.rename := by
  simp only [List.map_map, Function.comp_def, recasting.id_bar]

end Recasting

/-- Where two ids stay different, the first place of an id stays the same. -/
theorem idxOf_map_of_injOn {rename : String → String} {ids : List String} {id : String}
    (hinjective : Set.InjOn rename {other | other ∈ id :: ids}) :
    (ids.map rename).idxOf (rename id) = ids.idxOf id := by
  induction ids with
  | nil => rfl
  | cons first rest ih =>
    have hsame : (rename first == rename id) = (first == id) := by
      rw [Bool.eq_iff_iff, beq_iff_eq, beq_iff_eq]
      exact hinjective.eq_iff (by simp) (by simp)
    have hrest : Set.InjOn rename {other | other ∈ id :: rest} :=
      hinjective.mono fun other hother ↦ by
        simp only [Set.mem_ofPred_eq, List.mem_cons] at hother ⊢
        exact hother.imp_right .inr
    rw [List.map_cons, List.idxOf_cons, List.idxOf_cons, hsame, ih hrest]

theorem Region.bars_mapBars (f : Bar → Bar) (region : Region) :
    (region.mapBars f).bars = region.bars.map f := by
  have hpassage : ∀ passage : Passage, (passage.mapBars f).bars = passage.bars.map f := by
    intro passage
    cases passage <;> exact NonemptyList.toList_map f _
  cases region with
  | plain passage => exact hpassage passage
  | varied common variations =>
    simp only [mapBars, bars, hpassage, NonemptyList.toList_map, List.map_append, List.map_flatMap,
      List.flatMap_map]

/-- A piece with its own bars is the same. -/
theorem Structure.mapBars_id (piece : Structure) : piece.mapBars id = piece := by
  have hpassage : ∀ passage : Passage, passage.mapBars id = passage := by
    intro passage
    cases passage <;> rw [Passage.mapBars, NonemptyList.map_id]
  have hregion : ∀ region : Region, region.mapBars id = region := by
    intro region
    cases region with
    | plain passage => rw [Region.mapBars, hpassage]
    | varied common variations =>
      have hvariations : NonemptyList.map id = (id : BarRun → BarRun) := funext NonemptyList.map_id
      rw [Region.mapBars, hpassage, hvariations, NonemptyList.map_id]
  simp only [mapBars, hregion]
  exact congrArg (Structure.mk · piece.kind) (NonemptyList.map_id _)

theorem Structure.mapBars_ofRegions (f : Bar → Bar) (regions : NonemptyList Region) (kind : Kind) :
    (ofRegions regions kind).mapBars f = ofRegions (regions.map (Region.mapBars f)) kind := by
  simp [mapBars, ofRegions, NonemptyList.map, List.zipIdx_map]

namespace Grouping

variable {recasting : Recasting} {state : Grouping} {bar : Bar} {position : Nat}

theorem onTop_recast (state : Grouping) :
    (state.recast recasting).pending.onTop (state.recast recasting).closed =
      (state.pending.onTop state.closed).map (Region.mapBars recasting.bar) := by
  obtain ⟨offered, closed, pending, kind⟩ := state
  cases pending with
  | nothing => rfl
  | run bars marked start => rfl
  | variations common earlier current =>
    simp [recast, Pending.mapBars, Pending.onTop, Pending.region?, Region.mapBars,
      NonemptyList.map_snoc]

theorem kindWith_bar (kind : Kind) : kindWith kind (recasting.bar bar) = kindWith kind bar := by
  have hcapo := recasting.has_bar bar .daCapo rfl
  have hsegno := recasting.has_bar bar .dalSegno rfl
  cases kind <;> simp [kindWith, hcapo, hsegno]

/-! ### One bar -/

/-- A bar without a number is taken or refused as the old one is. -/
theorem addPlain_recast (hkeeps : recasting.KeepsRepeats) (unnumbered : bar.variation = none) :
    (state.recast recasting).addPlain (recasting.bar bar) position =
      ((state.addPlain bar position).map (·.recast recasting)).mapError
        (·.rename recasting.rename) := by
  have hstarts := hkeeps.starts bar unnumbered
  have hends := hkeeps.ends bar unnumbered
  rcases leavesRoomFor_or state.pending bar with
    room | ⟨⟨run, marked, start, hpending⟩, hstart⟩ | ⟨⟨run, start, hpending⟩, hstart⟩
  · have room' : (state.recast recasting).pending.LeavesRoomFor (recasting.bar bar) := by
      obtain ⟨offered, closed, pending, kind⟩ := state
      cases pending with
      | nothing => trivial
      | variations common earlier current => trivial
      | run run marked start => exact ⟨hstarts.trans room.1, room.2⟩
    rw [addPlain_of_room room, addPlain_of_room room', onTop_recast, hstarts, hends]
    cases bar.has .repeatEnd <;> rfl
  · have hpending' : (state.recast recasting).pending = .run (run.map recasting.bar) marked start := by
      rw [recast, hpending, Pending.mapBars]
    rw [addPlain_of_run hpending hstart, addPlain_of_run hpending' (hstarts.trans hstart), hends,
      ← NonemptyList.map_push]
    cases bar.has .repeatEnd <;> rfl
  · have hpending' : (state.recast recasting).pending = .run (run.map recasting.bar) true start := by
      rw [recast, hpending, Pending.mapBars]
    rw [addPlain_of_marked hpending hstart, addPlain_of_marked hpending' (hstarts.trans hstart),
      NonemptyList.map, recasting.id_bar]
    rfl

/-- A bar with a number is taken or refused as the old one is. -/
theorem addVariation_recast {number : Nat} :
    (state.recast recasting).addVariation (recasting.bar bar) number position =
      ((state.addVariation bar number position).map (·.recast recasting)).mapError
        (·.rename recasting.rename) := by
  obtain ⟨offered, closed, pending, kind⟩ := state
  cases pending with
  | run run marked start =>
    rw [addVariation_of_run rfl, addVariation_of_run rfl, recasting.id_bar]
    split_ifs
    · rfl
    · simp [Except.map, Except.mapError, Violation.rename]
  | variations common earlier current =>
    rw [addVariation_of_variations rfl, addVariation_of_variations rfl, List.length_map,
      ← NonemptyList.map_push, recasting.id_bar]
    split_ifs
    · rfl
    · simp [Except.map, Except.mapError, recast, Pending.mapBars, NonemptyList.map]
    · simp [Except.map, Except.mapError, Violation.rename]
  | nothing =>
    rcases closed with _ | ⟨⟨run | run⟩ | ⟨common, variations⟩, rest⟩ <;>
      simp only [addVariation, recast, Pending.mapBars, List.map_cons, List.map_nil, Region.mapBars,
        Passage.mapBars, recasting.id_bar] <;>
      split_ifs <;>
      simp [Except.map, Except.mapError, NonemptyList.map, Violation.rename]

/-- A bar is taken or refused as the old one is. -/
theorem add_recast (hkeeps : recasting.KeepsRepeats)
    (hseparates : recasting.Separates (bar.id :: state.offered)) :
    (state.recast recasting).add (recasting.bar bar) =
      ((state.add bar).map (·.recast recasting)).mapError (·.rename recasting.rename) := by
  have hknown : recasting.rename bar.id ∈ (state.recast recasting).offered ↔
      bar.id ∈ state.offered := by
    rw [recast, List.mem_map]
    constructor
    · rintro ⟨id, hid, hsame⟩
      rwa [← hseparates (List.mem_cons_of_mem _ hid) List.mem_cons_self hsame]
    · exact fun hid ↦ ⟨bar.id, hid, rfl⟩
  have hlength : (state.recast recasting).offered.length = state.offered.length :=
    List.length_map _
  by_cases hold : bar.id ∈ state.offered
  · have hplace : (state.recast recasting).offered.idxOf (recasting.rename bar.id) =
        state.offered.idxOf bar.id := idxOf_map_of_injOn hseparates
    simp only [add, recasting.id_bar, if_pos hold, if_pos (hknown.mpr hold), hplace, hlength]
    rfl
  · have hremember :
        { (state.recast recasting).remember (recasting.bar bar) with
          kind := kindWith (state.recast recasting).kind (recasting.bar bar) } =
        ({ state.remember bar with kind := kindWith state.kind bar } : Grouping).recast
          recasting := by
      simp [recast, remember, kindWith_bar, recasting.id_bar]
    simp only [add, recasting.id_bar, if_neg hold, if_neg (mt hknown.mp hold),
      recasting.variation_bar, hremember, hlength]
    cases hvariation : bar.variation with
    | none => exact addPlain_recast hkeeps hvariation
    | some number => exact addVariation_recast

/-! ### Whole scores -/

/-- Bars are taken, and the first refused one is refused, as the old ones are. -/
theorem foldlM_add_recast (hkeeps : recasting.KeepsRepeats) {bars : List Bar}
    (hseparates : recasting.Separates (state.offered ++ bars.map Bar.id)) :
    (bars.map recasting.bar).foldlM add (state.recast recasting) =
      ((bars.foldlM add state).map (·.recast recasting)).mapError (·.rename recasting.rename) := by
  induction bars generalizing state with
  | nil => rfl
  | cons bar rest ih =>
    have hfirst : recasting.Separates (bar.id :: state.offered) :=
      hseparates.mono fun id hid ↦ by
        simp only [Set.mem_ofPred_eq, List.mem_cons, List.mem_append, List.map_cons] at hid ⊢
        tauto
    rw [List.map_cons, List.foldlM_cons, List.foldlM_cons, add_recast hkeeps hfirst]
    cases hadd : state.add bar with
    | error refusal => rfl
    | ok next =>
      obtain ⟨-, closed, pending, -, rfl⟩ := add_eq_ok_iff.mp hadd
      refine ih ?_
      rwa [List.append_assoc, List.singleton_append, ← List.map_cons]

/-- The structure of the other bars, or the violation for which there is none. -/
theorem build_recast (state : Grouping) :
    (state.recast recasting).build.map Prod.fst =
      ((state.build.map Prod.fst).map (·.mapBars recasting.bar)).mapError
        (·.rename recasting.rename) := by
  have hregions : (state.recast recasting).regions =
      state.regions.map (Region.mapBars recasting.bar) := by
    rw [regions, regions, onTop_recast, List.map_reverse]
  have hmarked : (state.recast recasting).pending.IsMarked → state.pending.IsMarked := by
    obtain ⟨offered, closed, pending, kind⟩ := state
    rintro ⟨bars, start, hpending⟩
    cases pending with
    | nothing => cases hpending
    | variations common earlier current => cases hpending
    | run run marked first =>
      cases hpending
      exact ⟨run, start, rfl⟩
  rcases isMarked_or_regions state with
    ⟨run, start, hpending⟩ | ⟨hopen, hnil⟩ | ⟨hopen, regions, hlist⟩
  · have hpending' : (state.recast recasting).pending = .run (run.map recasting.bar) true start := by
      rw [recast, hpending, Pending.mapBars]
    rw [build_of_run hpending, build_of_run hpending', NonemptyList.map, recasting.id_bar]
    rfl
  · rw [build_of_regions_eq_nil hopen hnil,
      build_of_regions_eq_nil (mt hmarked hopen) (by rw [hregions, hnil, List.map_nil])]
    rfl
  · have hlist' : (regions.map (Region.mapBars recasting.bar)).toList =
        (state.recast recasting).regions := by
      rw [NonemptyList.toList_map, hlist, hregions]
    rw [build_of_regions hopen hlist, build_of_regions (mt hmarked hopen) hlist']
    rw [← Structure.mapBars_ofRegions]
    rfl

end Grouping

/-- The other bars have the same structure with these bars in it, or are refused for the same
violation. -/
theorem Structure.ofBars_map_bar {recasting : Recasting} (hkeeps : recasting.KeepsRepeats)
    {bars : List Bar} (hseparates : recasting.Separates (bars.map Bar.id)) :
    ofBars (bars.map recasting.bar) =
      ((ofBars bars).map (·.mapBars recasting.bar)).mapError (·.rename recasting.rename) := by
  have hrun := @Grouping.foldlM_add_recast recasting .start hkeeps bars hseparates
  have hstart : Grouping.start.recast recasting = .start := rfl
  rw [hstart] at hrun
  unfold ofBars
  rw [hrun]
  cases bars.foldlM Grouping.add Grouping.start with
  | error refusal => rfl
  | ok last => exact Grouping.build_recast last

end ScoreRepeats
