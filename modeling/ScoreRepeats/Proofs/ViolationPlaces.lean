import ScoreRepeats.Proofs.RegionPlaces
import ScoreRepeats.Proofs.ValidResolution

/-!
# Where violations point

The positions of a violation are places in the score as it was given. What stands at them is said
for each rule by itself (`Rule.Blames`), without regard to where the violation was found. Grouping
counts the bars that it was offered, and remembers where the open repeat starts; validation lists
the places of the marks, and looks bars up by their ids. All of them mean the same places, since the
bars of the structure are those of the score and no two share an id (`blames_of_ofBars_eq_error`,
`blames_of_firstViolation`).
-/

set_option autoImplicit false
set_option relaxedAutoImplicit false

namespace ScoreRepeats

/-! ### What is pointed at -/

/-- A bar that passes a test stands at a place of a score. -/
def StandsAmong (bars : List Bar) (test : Bar → Bool) (p : Nat) : Prop :=
  ∃ bar, bars[p]? = some bar ∧ test bar = true

/-- The places of all bars that pass a test, from first to last. -/
structure ListsAll (bars : List Bar) (test : Bar → Bool) (places : List Nat) : Prop where
  increasing : places.Pairwise (· < ·)
  mem_iff : ∀ p, p ∈ places ↔ StandsAmong bars test p

/-- A repeat starts at a place, and none of these bars closes it. -/
def IsLeftOpen (bars : List Bar) (p : Nat) : Prop :=
  StandsAmong bars (·.has .repeatStart) p ∧
    ∀ (q : Nat) (later : Bar), p ≤ q → bars[q]? = some later → ¬ later.ClosesRepeat

/-- The places that are reported for a score which cannot be grouped: none if it has no bars, a bar
of a variation, the start of a repeat that is never closed, or the start of a repeat with the next
start of one before it was closed. -/
inductive BlamesForm (bars : List Bar) : List Nat → Prop
  | noBars (empty : bars = []) : BlamesForm bars []
  | variation {p : Nat} (numbered : StandsAmong bars Bar.isNumbered p) : BlamesForm bars [p]
  | neverClosed {start : Nat} (open' : IsLeftOpen bars start) : BlamesForm bars [start]
  | startsAgain {start again : Nat} (before : start < again)
      (open' : IsLeftOpen (bars.take again) start)
      (starts : StandsAmong bars (·.has .repeatStart) again) : BlamesForm bars [start, again]

/-- Whether a bar carries a first or a second Coda. -/
def Bar.hasCoda (bar : Bar) : Bool := bar.has .codaFirst || bar.has .codaSecond

/-- What stands at the places that are reported for a broken rule. -/
def Rule.Blames (bars : List Bar) (places : List Nat) : Rule → Prop
  | .malformedStructure => BlamesForm bars places
  | .duplicateBarId => ∃ first again id, places = [first, again] ∧ first < again ∧
      (bars.map Bar.id)[first]? = some id ∧ (bars.map Bar.id)[again]? = some id ∧
      ((bars.take again).map Bar.id).Nodup
  | .duplicatedJump | .misplacedJump => ListsAll bars Bar.hasJump places
  | .missingSegno => ListsAll bars Bar.hasJump places ∧ bars ≠ [] ∧ places = [bars.length - 1]
  | .unexpectedSegno | .duplicatedSegno => ListsAll bars (·.has .segno) places
  | .fineWithoutJump | .duplicatedFine => ListsAll bars (·.has .fine) places
  | .segnoAfterFine => ∃ segno fine, places = [segno, fine] ∧
      StandsAmong bars (·.has .segno) segno ∧ StandsAmong bars (·.has .fine) fine ∧ fine ≤ segno
  | .codaWithoutJump | .codaCountInvalid => ListsAll bars Bar.hasCoda places
  | .codaOrderInvalid => ∃ first second, places = [first, second] ∧
      StandsAmong bars (·.has .codaFirst) first ∧ StandsAmong bars (·.has .codaSecond) second ∧
      second < first
  | .codaAfterFine => ∃ first second fine, places = [first, second, fine] ∧
      StandsAmong bars (·.has .codaFirst) first ∧ StandsAmong bars (·.has .codaSecond) second ∧
      StandsAmong bars (·.has .fine) fine ∧ first < second ∧ fine ≤ second
  | .insufficientVariations => ∃ piece p common variations, Structure.ofBars bars = .ok piece ∧
      (p, Region.varied common variations) ∈ piece.placed ∧ variations.length < 2 ∧
      bars[p]? = some common.firstBar ∧ places = [p]
  | .auftaktArithmeticMismatch => bars ≠ [] ∧ places = [0, bars.length - 1]

variable {bars : List Bar} {test : Bar → Bool} {places : List Nat} {p : Nat}

theorem StandsAmong.lt_length (h : StandsAmong bars test p) : p < bars.length := by
  obtain ⟨bar, hbar, -⟩ := h
  exact (List.getElem?_eq_some_iff.mp hbar).1

theorem ListsAll.lt_length (h : ListsAll bars test places) : ∀ p ∈ places, p < bars.length :=
  fun p hp ↦ ((h.mem_iff p).mp hp).lt_length

/-- Both places of a pair are below a bound when each is. -/
theorem forall_mem_pair_lt {n q : Nat} (hp : p < n) (hq : q < n) : ∀ place ∈ [p, q], place < n :=
  List.forall_mem_cons.mpr ⟨hp, List.forall_mem_singleton.mpr hq⟩

/-- All reported places are places of the score. -/
theorem Rule.Blames.lt_length {rule : Rule} (h : rule.Blames bars places) :
    ∀ p ∈ places, p < bars.length := by
  cases rule with
  | malformedStructure =>
    cases h with
    | noBars => exact List.forall_mem_nil _
    | variation numbered => exact List.forall_mem_singleton.mpr numbered.lt_length
    | neverClosed left => exact List.forall_mem_singleton.mpr left.1.lt_length
    | startsAgain before _ starts =>
      have hagain := starts.lt_length
      exact forall_mem_pair_lt (before.trans hagain) hagain
  | duplicateBarId =>
    obtain ⟨first, again, id, rfl, hlt, -, hagain, -⟩ := h
    have hlength := (List.getElem?_eq_some_iff.mp hagain).1
    rw [List.length_map] at hlength
    exact forall_mem_pair_lt (hlt.trans hlength) hlength
  | duplicatedJump | misplacedJump | unexpectedSegno | duplicatedSegno | fineWithoutJump
  | duplicatedFine | codaWithoutJump | codaCountInvalid => exact ListsAll.lt_length h
  | missingSegno => exact h.1.lt_length
  | segnoAfterFine =>
    obtain ⟨segno, fine, rfl, hsegno, hfine, -⟩ := h
    exact forall_mem_pair_lt hsegno.lt_length hfine.lt_length
  | codaOrderInvalid =>
    obtain ⟨first, second, rfl, hfirst, hsecond, -⟩ := h
    exact forall_mem_pair_lt hfirst.lt_length hsecond.lt_length
  | codaAfterFine =>
    obtain ⟨first, second, fine, rfl, hfirst, hsecond, hfine, -⟩ := h
    exact List.forall_mem_cons.mpr ⟨hfirst.lt_length,
      forall_mem_pair_lt hsecond.lt_length hfine.lt_length⟩
  | insufficientVariations =>
    obtain ⟨piece, p, common, variations, -, -, -, hbar, rfl⟩ := h
    exact List.forall_mem_singleton.mpr (List.getElem?_eq_some_iff.mp hbar).1
  | auftaktArithmeticMismatch =>
    obtain ⟨hne, rfl⟩ := h
    have hpos := List.length_pos_iff.mpr hne
    exact forall_mem_pair_lt hpos (Nat.sub_one_lt_of_lt hpos)

/-! ### Bars that cannot be grouped -/

namespace Grouping

variable {state : Grouping} {bar : Bar} {violation : Violation}

/-- An open repeat starts at the place that is remembered for it. -/
theorem Holds.isLeftOpen (h : Holds state bars) {run : BarRun} {start : Nat}
    (hpending : state.pending = .run run true start) : IsLeftOpen bars start := by
  have hfits := h.tidy.fits
  rw [hpending] at hfits
  obtain ⟨hopen, hmarked, hstart⟩ := hfits
  have hlength : (state.closed.reverse.flatMap Region.bars).length = start := by
    rw [length_flatMap_bars_reverse, hstart]
  have hbars : state.closed.reverse.flatMap Region.bars ++ run.toList = bars := by
    rw [← h.written, regions, hpending, Pending.onTop]
    simp [Pending.region?, Region.bars, Passage.bars, Passage.run]
  constructor
  · refine ⟨run.head, ?_, hmarked.symm⟩
    rw [← hbars, ← hlength, List.getElem?_append_right (Nat.le_refl _), Nat.sub_self]
    rfl
  · intro q later hq hlater
    rw [← hbars, List.getElem?_append_right (hlength ▸ hq)] at hlater
    have hmem : later ∈ run.toList := List.mem_of_getElem? hlater
    simp [Bar.ClosesRepeat, hopen.unnumbered later hmem, hopen.unended later hmem]

/-- A refused bar is refused for a place of its own or with the one that it clashes with. -/
theorem Refuses.blames {before after : List Bar} (h : Refuses state bar violation)
    (hholds : Holds state before) :
    violation.rule.Blames (before ++ bar :: after) violation.positions := by
  have hlength : state.offered.length = before.length := by rw [hholds.offered, List.length_map]
  have hhere : (before ++ bar :: after)[state.offered.length]? = some bar := by
    rw [hlength, List.getElem?_append_right (Nat.le_refl _), Nat.sub_self]
    rfl
  cases h with
  | known old =>
    refine ⟨_, _, bar.id, rfl, List.idxOf_lt_length_of_mem old, ?_, ?_, ?_⟩
    · rw [List.map_append, ← hholds.offered,
        List.getElem?_append_left (List.idxOf_lt_length_of_mem old)]
      exact List.getElem?_idxOf old
    · rw [List.getElem?_map, hhere]
      rfl
    · rw [hlength, List.take_left]
      exact hholds.distinct
  | insideRepeat _ _ started hpending =>
    have hopen := hholds.isLeftOpen hpending
    refine .startsAgain (hlength ▸ hopen.1.lt_length) ?_ ⟨bar, hhere, started⟩
    rw [hlength, List.take_left]
    exact hopen
  | beforeFirst _ numbered => exact .variation ⟨bar, hhere, by simp [Bar.isNumbered, numbered]⟩
  | noCommon _ numbered => exact .variation ⟨bar, hhere, by simp [Bar.isNumbered, numbered]⟩
  | outOfTurn _ numbered => exact .variation ⟨bar, hhere, by simp [Bar.isNumbered, numbered]⟩

end Grouping

namespace Structure

variable {piece : Structure} {rhythm : Option Rhythm} {auftakt : Bool} {violation : Violation}

/-- The violation for which a score cannot be grouped points at its culprits. -/
theorem blames_of_ofBars_eq_error (h : ofBars bars = .error (.violation violation)) :
    violation.rule.Blames bars violation.positions := by
  rcases Grouping.ofBars_eq_error_iff.mp h with hbars | ⟨last, hlast, hbuild⟩
  · obtain ⟨before, bar, after, state, rfl, hstate, hadd⟩ := foldlM_eq_error_iff.mp hbars
    obtain ⟨found, hrefuses, htold⟩ := Grouping.exists_refuses_of_add_eq_error hadd
    obtain ⟨-, rfl⟩ := Violation.refusal_eq_violation_iff.mp htold
    exact hrefuses.blames (Grouping.foldlM_add_start_eq_ok_iff.mp hstate)
  · have hholds := Grouping.foldlM_add_start_eq_ok_iff.mp hlast
    rcases Grouping.isMarked_or_regions last with
      ⟨run, start, hpending⟩ | ⟨hopen, hnil⟩ | ⟨hopen, regions, hlist⟩
    · rw [Grouping.build_of_run hpending] at hbuild
      cases hbuild
      exact .neverClosed (hholds.isLeftOpen hpending)
    · rw [Grouping.build_of_regions_eq_nil hopen hnil] at hbuild
      cases hbuild
      refine .noBars ?_
      rw [← hholds.written, hnil, List.flatMap_nil]
    · rw [Grouping.build_of_regions hopen hlist] at hbuild
      cases hbuild

/-! ### Pieces that break a rule -/

/-- The positions of the bars that pass a test are all their places. -/
theorem listsAll_positionsWhere (test : Bar → Bool) :
    ListsAll piece.bars test (piece.positionsWhere test) :=
  ⟨pairwise_positionsWhere, fun _ ↦ mem_positionsWhere_iff⟩

/-- The first position of a mark is one where the mark stands. -/
theorem standsAmong_of_positionOf {marker : Marker} (h : piece.positionOf marker = some p) :
    StandsAmong piece.bars (·.has marker) p :=
  mem_positionsWhere_iff.mp (List.mem_of_head? h)

/-- An only position of a mark is one where the mark stands. -/
theorem standsAmong_of_positionsOf {marker : Marker} (h : piece.positionsOf marker = [p]) :
    StandsAmong piece.bars (·.has marker) p := by
  refine mem_positionsWhere_iff.mp ?_
  rw [← positionsOf, h]
  exact List.mem_singleton_self p

/-- The test of the jump instruction points at all of them. -/
theorem blames_of_jumpViolation (h : piece.jumpViolation = some violation) :
    violation.rule.Blames piece.bars violation.positions := by
  have hall : ListsAll piece.bars Bar.hasJump piece.jumpPositions := listsAll_positionsWhere _
  unfold jumpViolation at h
  rcases hjumps : piece.jumpPositions with _ | ⟨jump, _ | ⟨second, more⟩⟩ <;>
    rw [hjumps] at h hall <;> dsimp only at h
  · cases h
  · split_ifs at h
    cases h
    exact hall
  · cases h
    exact hall

/-- In a piece with a jump whose instruction is in its place, the last bar and no other carries it.
-/
theorem jumpPositions_eq_of_kind_ne_bare (hkind : piece.kind = Kind.ofBars piece.bars)
    (hjump : piece.jumpViolation = none) (hne : piece.kind ≠ .bare) :
    piece.jumpPositions = [piece.bars.length - 1] := by
  unfold jumpViolation at hjump
  rcases hjumps : piece.jumpPositions with _ | ⟨jump, _ | ⟨second, more⟩⟩ <;>
    rw [hjumps] at hjump <;> dsimp only at hjump
  · rw [jumpPositions, ← List.length_eq_zero_iff, length_positionsWhere, List.countP_eq_zero]
      at hjumps
    have hnone : piece.bars.find? Bar.hasJump = none := List.find?_eq_none.mpr hjumps
    simp [hkind, Kind.ofBars, hnone] at hne
  · split_ifs at hjump with hlast
    rw [← size, ← hlast, Nat.add_sub_cancel]
  · cases hjump

/-- The test of the Segno points at all of them, or at the jump instruction that has none. -/
theorem blames_of_segnoViolation (hkind : piece.kind = Kind.ofBars piece.bars)
    (hjump : piece.jumpViolation = none) (h : piece.segnoViolation = some violation) :
    violation.rule.Blames piece.bars violation.positions := by
  have hall : ListsAll piece.bars (·.has .segno) (piece.positionsOf .segno) :=
    listsAll_positionsWhere _
  by_cases hsegno : piece.kind = .dalSegno
  · unfold segnoViolation at h
    rcases hsegnos : piece.positionsOf .segno with _ | ⟨segno, _ | ⟨second, more⟩⟩ <;>
      rw [hsegno, hsegnos] at h <;> rw [hsegnos] at hall <;> cases h
    · have hplace := jumpPositions_eq_of_kind_ne_bare hkind hjump (by simp [hsegno])
      exact ⟨listsAll_positionsWhere _, piece.bars_ne_nil, hplace⟩
    · exact hall
  · rw [segnoViolation_of_ne_dalSegno hsegno] at h
    split_ifs at h
    cases h
    exact hall

/-- The test of Fine points at all of them, or at the Segno and the Fine before it. -/
theorem blames_of_fineViolation (h : piece.fineViolation = some violation) :
    violation.rule.Blames piece.bars violation.positions := by
  have hall : ListsAll piece.bars (·.has .fine) (piece.positionsOf .fine) :=
    listsAll_positionsWhere _
  unfold fineViolation at h
  rcases hfines : piece.positionsOf .fine with _ | ⟨fine, more⟩ <;>
    rw [hfines] at h hall <;> dsimp only at h
  · cases h
  · split_ifs at h with hbare hmore
    · cases h
      exact hall
    · cases h
      exact hall
    · rw [not_not] at hmore
      subst hmore
      cases hsegno : piece.positionOf .segno with
      | none =>
        rw [hsegno] at h
        cases h
      | some segno =>
        rw [hsegno] at h
        dsimp only at h
        split_ifs at h with hlt
        cases h
        exact ⟨segno, fine, rfl, standsAmong_of_positionOf hsegno,
          standsAmong_of_positionsOf hfines, Nat.not_lt.mp hlt⟩

/-- A first and a second Coda stand on different bars. -/
theorem ne_of_standsAmong_codas {first second : Nat}
    (hfirst : StandsAmong bars (·.has .codaFirst) first)
    (hsecond : StandsAmong bars (·.has .codaSecond) second) : first ≠ second := by
  rintro rfl
  obtain ⟨bar, hbar, hcoda⟩ := hfirst
  obtain ⟨other, hother, hcoda'⟩ := hsecond
  obtain rfl : bar = other := Option.some.inj (hbar.symm.trans hother)
  exact absurd (Bar.excludes_eq_false hcoda hcoda') (by decide)

/-- The test of the Codas points at all of them, or at the pair and the Fine that is not after it.
-/
theorem blames_of_codaViolation (h : piece.codaViolation = some violation) :
    violation.rule.Blames piece.bars violation.positions := by
  have hall : ListsAll piece.bars Bar.hasCoda piece.codaPositions := listsAll_positionsWhere _
  by_cases hcodas : piece.codaPositions = []
  · rw [codaViolation_of_nil hcodas] at h
    cases h
  · by_cases hkind : piece.kind = .bare
    · rw [codaViolation_of_bare hcodas hkind] at h
      cases h
      exact hall
    · by_cases hpair : (piece.positionsOf .codaFirst).length = 1 ∧
          (piece.positionsOf .codaSecond).length = 1
      · obtain ⟨first, hfirst⟩ := List.length_eq_one_iff.mp hpair.1
        obtain ⟨second, hsecond⟩ := List.length_eq_one_iff.mp hpair.2
        have hfirsts := standsAmong_of_positionsOf hfirst
        have hseconds := standsAmong_of_positionsOf hsecond
        have hne := ne_of_standsAmong_codas hfirsts hseconds
        rw [codaViolation_of_pair hcodas hkind hfirst hsecond] at h
        split_ifs at h with hreversed
        · cases h
          exact ⟨first, second, rfl, hfirsts, hseconds, by omega⟩
        · obtain ⟨fine, hfine, hlate⟩ := Option.bind_eq_some_iff.mp h
          split_ifs at hlate with hlt
          cases hlate
          exact ⟨first, second, fine, rfl, hfirsts, hseconds, standsAmong_of_positionOf hfine,
            by omega, Nat.not_lt.mp hlt⟩
      · rw [codaViolation_of_not_pair hcodas hkind hpair] at h
        cases h
        exact hall

/-- Every region stands at a place of its own. -/
theorem exists_mem_placed {region : Region} (h : region ∈ piece.regions.toList) :
    ∃ p, (p, region) ∈ piece.placed := by
  have hregions : piece.placed.map Prod.snd = piece.regions.toList := map_snd_placedFrom _ _ _
  rw [← hregions, List.mem_map] at h
  obtain ⟨⟨p, other⟩, hmem, rfl⟩ := h
  exact ⟨p, hmem⟩

/-- At the place of a region stands its first bar. -/
theorem getElem?_of_mem_placed {place : Nat × Region} (h : place ∈ piece.placed) :
    piece.bars[place.1]? = some place.2.firstBar := by
  obtain ⟨rest, hrest⟩ := isPrefix_drop_of_mem_placed h
  have hhead : (piece.bars.drop place.1).head? = some place.2.firstBar := by
    rw [← hrest, List.head?_append, place.2.head?_bars, Option.some_or]
  rwa [List.head?_drop] at hhead

/-- Where no two bars share an id, each is found where it stands. -/
theorem locate_eq_of_getElem? (distinct : piece.ids.Nodup) {bar : Bar}
    (h : piece.bars[p]? = some bar) : piece.locate bar.id = p := by
  have hid : piece.ids[p]? = some bar.id := by rw [ids, List.getElem?_map, h, Option.map_some]
  obtain ⟨hlt, hid⟩ := List.getElem?_eq_some_iff.mp hid
  rw [locate, ← hid]
  exact distinct.idxOf_getElem p hlt

/-- The test of the variations points at the first bar of a region with too few of them. -/
theorem blames_of_variationViolation (hpiece : ofBars piece.bars = .ok piece)
    (distinct : piece.ids.Nodup) (h : piece.variationViolation = some violation) :
    violation.rule.Blames piece.bars violation.positions := by
  obtain ⟨region, hregion, hfew⟩ := List.exists_of_findSome?_eq_some h
  cases region with
  | plain passage => cases hfew
  | varied common variations =>
    dsimp only at hfew
    split_ifs at hfew with henough
    cases hfew
    obtain ⟨p, hplaced⟩ := exists_mem_placed hregion
    have hbar : piece.bars[p]? = some common.firstBar := getElem?_of_mem_placed hplaced
    refine ⟨piece, p, common, variations, hpiece, hplaced, Nat.not_le.mp henough, hbar, ?_⟩
    exact congrArg (fun place ↦ [place]) (locate_eq_of_getElem? distinct hbar)

/-- The test of the pickup points at the first bar and the last. -/
theorem blames_of_pickupViolation (h : piece.pickupViolation rhythm auftakt = some violation) :
    violation.rule.Blames piece.bars violation.positions := by
  unfold pickupViolation at h
  dsimp only at h
  split_ifs at h
  cases h
  exact ⟨piece.bars_ne_nil, rfl⟩

/-- The test of the ids finds nothing where no two bars share an id. -/
theorem idViolation_eq_none (distinct : piece.ids.Nodup) : piece.idViolation = none := by
  have hfinds := @finds_idViolation piece none false
  cases hid : piece.idViolation with
  | none => rfl
  | some other =>
    rw [hid] at hfinds
    obtain ⟨hbroken, before, after, hsplit, -⟩ := hfinds
    have hrule : other.rule ∈ [Rule.duplicateBarId] := by simp [hsplit]
    rw [List.mem_singleton.mp hrule] at hbroken
    exact absurd distinct hbroken

/-- The first violation of a piece whose ids all differ comes from one of the tests, the one of the
Segno only where the jump instruction is in its place. -/
theorem firstViolation_cases (distinct : piece.ids.Nodup)
    (h : piece.firstViolation rhythm auftakt = some violation) :
    piece.jumpViolation = some violation ∨
      piece.jumpViolation = none ∧ piece.segnoViolation = some violation ∨
      piece.fineViolation = some violation ∨ piece.codaViolation = some violation ∨
      piece.variationViolation = some violation ∨
      piece.pickupViolation rhythm auftakt = some violation := by
  have hids := idViolation_eq_none distinct
  simp only [firstViolation, hids, List.findSome?_cons, List.findSome?_nil, id] at h
  cases hjump : piece.jumpViolation with
  | some other =>
    rw [hjump] at h
    exact .inl h
  | none =>
    rw [hjump] at h
    simp only at h
    grind

/-- The first violation of a piece that was grouped points at its culprits among the bars. -/
theorem blames_of_firstViolation (hpiece : ofBars piece.bars = .ok piece)
    (h : piece.firstViolation rhythm auftakt = some violation) :
    violation.rule.Blames piece.bars violation.positions := by
  obtain ⟨hnodup, regions, -, -, hregions⟩ := ofBars_eq_ok_iff_exists_isCanonical.mp hpiece
  have hkind : piece.kind = Kind.ofBars piece.bars := congrArg Structure.kind hregions
  rcases firstViolation_cases hnodup h with hjump | ⟨hnone, hsegno⟩ | hfine | hcoda | hfew | hpickup
  · exact blames_of_jumpViolation hjump
  · exact blames_of_segnoViolation hkind hnone hsegno
  · exact blames_of_fineViolation hfine
  · exact blames_of_codaViolation hcoda
  · exact blames_of_variationViolation hpiece hnodup hfew
  · exact blames_of_pickupViolation hpickup

/-! ### Whole scores -/

/-- A violation for which a score is not performed points at places of the score, and at these
stands what the broken rule is about. -/
theorem blames_of_perform_eq_error (bars : List Bar) (rhythm : Option Rhythm) (auftakt : Bool)
    (violation : Violation)
    (h : perform bars rhythm auftakt = .error (.refused (.violation violation))) :
    (∀ p ∈ violation.positions, p < bars.length) ∧
      violation.rule.Blames bars violation.positions := by
  have hblames : violation.rule.Blames bars violation.positions := by
    rcases perform_eq_refused_iff.mp h with hbars | ⟨piece, hpiece, hvalid⟩
    · exact blames_of_ofBars_eq_error hbars
    · obtain ⟨rfl, -⟩ := bars_of_ofBars hpiece
      obtain ⟨found, hfound, htold⟩ := validate_eq_error_iff.mp hvalid
      obtain ⟨-, rfl⟩ := Violation.refusal_eq_violation_iff.mp htold
      exact blames_of_firstViolation hpiece hfound
  exact ⟨hblames.lt_length, hblames⟩

/-- A score with two endings whose Fine stands between the Codas. -/
def scoreWithFineInCoda : List Bar :=
  [unmarkedBar "A", markedBar "B" .codaFirst, variationBar "C" 1 some_one_ne_some_zero,
    variationBar "D" 2 some_two_ne_some_zero, markedBar "E" .fine, markedBar "F" .codaSecond,
    markedBar "G" .daCapo]

/-- The score is refused for its Codas and its Fine, and they are pointed at in this order. -/
theorem blames_scoreWithFineInCoda :
    perform scoreWithFineInCoda none false =
        .error (.refused (.violation (.codasNotBeforeFine 1 5 4))) ∧
      (∀ p ∈ [1, 5, 4], p < 7) ∧ Rule.codaAfterFine.Blames scoreWithFineInCoda [1, 5, 4] := by
  have hrefused : perform scoreWithFineInCoda none false =
      .error (.refused (.violation (.codasNotBeforeFine 1 5 4))) := by rfl
  exact ⟨hrefused, blames_of_perform_eq_error _ _ _ _ hrefused⟩

end Structure

end ScoreRepeats
