import ScoreRepeats.Proofs.PieceLayout
import ScoreRepeats.Proofs.ValidResolution

/-!
# Pieces that were not validated

A piece put together by hand may break every rule: it may lack the Segno to which its jump leads,
have many Segnos, Fines and Codas, or several bars with one id. Resolution without an index tests
just what its walk relies on, and `Structure.IsInconsistent` says when this test fails. It is not
too weak: where it passes, the piece is played, and it is played only with bars that are found
(`Structure.IsFound`), although positions come from ids and ids go back to positions.

With an index made by hand nothing is tested. The walk through the replay gets past every Coda
unless the second Coda of the index is before the first (`MarkerIndex.HasReversedCodas`), since the
Coda branch drops the position that it stands at; this needs no order of the positions
(`navigate_outcomes`). What can still fail is that a mark is needed which the index does not have.
However it is navigated, the positions that sound are those of first bars with some id
(`Structure.resolveWith_outcomes`).
-/

set_option autoImplicit false
set_option relaxedAutoImplicit false

namespace ScoreRepeats

/-- A failure that says that a piece is inconsistent. The others are those of a walk that lacks a
mark or never ends. -/
def ResolutionError.IsInconsistency : ResolutionError → Prop
  | .noSegno | .unpairedCoda _ | .repeatedIds => True
  | .missingMark | .endlessCoda => False

/-- Both Codas are indexed, and the second before the first. -/
def MarkerIndex.HasReversedCodas (index : MarkerIndex) : Prop :=
  ∃ first second, index.codaFirst = some first ∧ index.codaSecond = some second ∧ second < first

/-! ### The walk by an arbitrary index -/

/-- The walk through any positions leaves out some of them, or it stands at the first Coda and there
is no second, or the Codas of the index are reversed. -/
theorem navigate_outcomes (index : MarkerIndex) (positions : List Nat) :
    (∃ sounding, navigate index positions = .ok sounding ∧ sounding.Sublist positions) ∨
      (navigate index positions = .error .missingMark ∧
        index.codaFirst ≠ none ∧ index.codaSecond = none) ∨
      navigate index positions = .error .endlessCoda ∧ index.HasReversedCodas := by
  fun_induction navigate index positions with
  | case1 => exact .inl ⟨[], rfl, List.Sublist.refl _⟩
  | case2 position rest hcoda hnone =>
    exact .inr (.inl ⟨rfl, by rw [hcoda]; exact Option.some_ne_none _, hnone⟩)
  | case3 position rest hcoda second hsecond hle ih =>
    rcases ih with ⟨sounding, hsounding, hsublist⟩ | hfails
    · refine .inl ⟨sounding, hsounding, ?_⟩
      exact (hsublist.trans (List.dropWhile_sublist _)).trans (List.sublist_cons_self _ _)
    · exact .inr hfails
  | case4 position rest hcoda second hsecond hlt =>
    exact .inr (.inr ⟨rfl, position, second, hcoda, hsecond, Int.not_le.mp hlt⟩)
  | case5 position rest hcoda hpast => exact .inl ⟨[], rfl, List.nil_sublist _⟩
  | case6 position rest hcoda hpast hfine =>
    exact .inl ⟨[position], rfl, (List.nil_sublist rest).cons_cons position⟩
  | case7 position rest hcoda hpast hfine ih =>
    rcases ih with ⟨sounding, hsounding, hsublist⟩ | ⟨hmissing, hcodas⟩ | ⟨hendless, hreversed⟩
    · exact .inl ⟨position :: sounding, by rw [hsounding]; rfl, hsublist.cons_cons position⟩
    · exact .inr (.inl ⟨by rw [hmissing]; rfl, hcodas⟩)
    · exact .inr (.inr ⟨by rw [hendless]; rfl, hreversed⟩)

/-! ### Positions come from bars -/

section LookUps

variable {locate : String → Nat} {p : Nat}

/-- A position of a run is that of a bar of the run. -/
theorem BarRun.exists_mem_of_mem_play {run : BarRun} (hp : p ∈ run.play locate) :
    ∃ bar ∈ run.toList, locate bar.id = p :=
  List.mem_map.mp hp

/-- A position of a passage at first playing is that of a bar of the passage. -/
theorem Passage.exists_mem_of_mem_forward {passage : Passage} (hp : p ∈ passage.forward locate) :
    ∃ bar ∈ passage.bars, locate bar.id = p := by
  cases passage with
  | straight run => exact BarRun.exists_mem_of_mem_play hp
  | repeated run =>
    rcases List.mem_append.mp hp with hp | hp
    · exact BarRun.exists_mem_of_mem_play hp
    · exact BarRun.exists_mem_of_mem_play hp

/-- A position of one variation is that of a bar of the region. -/
theorem Region.exists_mem_of_mem_variation {common : Passage} {variations : NonemptyList BarRun}
    {variation : BarRun} (hvariation : variation ∈ variations.toList)
    (hp : p ∈ variation.play locate) :
    ∃ bar ∈ (Region.varied common variations).bars, locate bar.id = p := by
  obtain ⟨bar, hbar, hlocate⟩ := BarRun.exists_mem_of_mem_play hp
  exact ⟨bar, List.mem_append_right _ (List.mem_flatMap.mpr ⟨variation, hvariation, hbar⟩), hlocate⟩

/-- A position of a region at first playing is that of a bar of the region. -/
theorem Region.exists_mem_of_mem_forward {region : Region} (hp : p ∈ region.forward locate) :
    ∃ bar ∈ region.bars, locate bar.id = p := by
  cases region with
  | plain passage => exact Passage.exists_mem_of_mem_forward hp
  | varied common variations =>
    obtain ⟨variation, hvariation, hp⟩ := List.mem_flatMap.mp hp
    rcases List.mem_append.mp hp with hp | hp
    · obtain ⟨bar, hbar, hlocate⟩ := Passage.exists_mem_of_mem_forward hp
      exact ⟨bar, List.mem_append_left _ hbar, hlocate⟩
    · exact Region.exists_mem_of_mem_variation hvariation hp

/-- A position of a region in the replay is that of a bar of the region. -/
theorem Region.exists_mem_of_mem_replay {region : Region} (hp : p ∈ region.replay locate) :
    ∃ bar ∈ region.bars, locate bar.id = p := by
  cases region with
  | plain passage => exact BarRun.exists_mem_of_mem_play hp
  | varied common variations =>
    rcases List.mem_append.mp hp with hp | hp
    · obtain ⟨bar, hbar, hlocate⟩ := BarRun.exists_mem_of_mem_play hp
      exact ⟨bar, List.mem_append_left _ hbar, hlocate⟩
    · exact Region.exists_mem_of_mem_variation variations.last_mem hp

end LookUps

namespace Structure

variable {piece : Structure} {index : MarkerIndex} {p : Nat}

/-- A position is that of the first bar with some id. -/
def IsLookUp (piece : Structure) (p : Nat) : Prop := ∃ bar ∈ piece.bars, piece.locate bar.id = p

/-- The first playing goes to positions of bars. -/
theorem isLookUp_of_mem_forward (hp : p ∈ piece.forward) : piece.IsLookUp p := by
  obtain ⟨region, hregion, hp⟩ := List.mem_flatMap.mp hp
  obtain ⟨bar, hbar, hlocate⟩ := Region.exists_mem_of_mem_forward hp
  exact ⟨bar, List.mem_flatMap.mpr ⟨region, hregion, hbar⟩, hlocate⟩

/-- The replay goes to positions of bars. -/
theorem isLookUp_of_mem_replay (hp : p ∈ piece.replay) : piece.IsLookUp p := by
  obtain ⟨region, hregion, hp⟩ := List.mem_flatMap.mp hp
  obtain ⟨bar, hbar, hlocate⟩ := Region.exists_mem_of_mem_replay hp
  exact ⟨bar, List.mem_flatMap.mpr ⟨region, hregion, hbar⟩, hlocate⟩

/-- An entry of an order is found in the piece: its id leads to its position, and the bar there has
its id and its length. -/
def IsFound (piece : Structure) (entry : PlayedBar) : Prop :=
  piece.position entry.id = .ok entry.position ∧
    ∃ bar, piece.bars[entry.position]? = some bar ∧ bar.id = entry.id ∧ bar.ticks = entry.ticks

/-- At the position of the first bar with some id there is a bar, and its id leads there. -/
theorem IsLookUp.exists_bar (hp : piece.IsLookUp p) :
    ∃ bar, piece.bars[p]? = some bar ∧ piece.position bar.id = .ok p := by
  obtain ⟨named, hnamed, rfl⟩ := hp
  have hposition := position_locate (List.mem_map_of_mem hnamed : named.id ∈ piece.ids)
  obtain ⟨bar, hbar, hsame⟩ := (position_eq_ok_iff.mp hposition).1
  exact ⟨bar, hbar, by rw [beq_iff_eq.mp hsame, hposition]⟩

/-- The entries at positions of bars are found. -/
theorem isFound_of_mem_entriesAfter {earlier positions : List Nat}
    (hpositions : ∀ p ∈ positions, piece.IsLookUp p) {entry : PlayedBar}
    (hentry : entry ∈ piece.entriesAfter earlier positions) : piece.IsFound entry := by
  induction positions generalizing earlier with
  | nil => cases hentry
  | cons position rest ih =>
    rcases List.mem_cons.mp hentry with rfl | hentry
    · obtain ⟨bar, hbar, hposition⟩ := (hpositions position List.mem_cons_self).exists_bar
      refine ⟨?_, bar, hbar, ?_⟩
      · rw [barAt_eq hbar, hposition]
      · rw [barAt_eq hbar]
        exact ⟨rfl, rfl⟩
    · exact ih (fun p hp ↦ hpositions p (List.mem_cons_of_mem _ hp)) hentry

/-! ### Resolution by an arbitrary index -/

/-- What the replay of a piece can need and an index lacks: the Segno of a Dal Segno, or the second
Coda after an indexed first one. -/
def Lacks (piece : Structure) (index : MarkerIndex) : Prop :=
  piece.kind = .dalSegno ∧ index.segno = none ∨
    piece.kind ≠ .bare ∧ index.codaFirst ≠ none ∧ index.codaSecond = none

/-- A replay has a start, unless it is that of a Dal Segno and the index has no Segno. -/
theorem replayStart_cases (rhythm : Option Rhythm) (auftakt : Bool) :
    (∃ start, piece.replayStart rhythm auftakt index = .ok start) ∨
      piece.replayStart rhythm auftakt index = .error .missingMark ∧
        piece.kind = .dalSegno ∧ index.segno = none := by
  by_cases hlacks : piece.kind = .dalSegno ∧ index.segno = none
  · exact .inr ⟨by rw [replayStart, hlacks.1, hlacks.2], hlacks⟩
  · obtain ⟨start, hstart, -⟩ := exists_replayStart_eq_ok rhythm auftakt
      fun hkind hsegno ↦ hlacks ⟨hkind, hsegno⟩
    exact .inl ⟨start, hstart⟩

/-- After a jump there sounds the replay from its start on, as the marks lead through it. -/
theorem replayed_of_kind_ne_bare (rhythm : Option Rhythm) (auftakt : Bool)
    (hkind : piece.kind ≠ .bare) : piece.replayed rhythm auftakt index =
      (piece.replayStart rhythm auftakt index).bind fun start ↦
        navigate index (piece.replay.dropWhile fun position ↦ decide ((position : Int) < start)) := by
  rw [replayed]
  cases hjump : piece.kind with
  | bare => exact absurd hjump hkind
  | daCapo => cases piece.replayStart rhythm auftakt index <;> rfl
  | dalSegno => cases piece.replayStart rhythm auftakt index <;> rfl

/-- What sounds again is a part of the replay, or the index lacks a mark, or its Codas are reversed.
-/
theorem replayed_outcomes (piece : Structure) (rhythm : Option Rhythm) (auftakt : Bool)
    (index : MarkerIndex) :
    (∃ replayed, piece.replayed rhythm auftakt index = .ok replayed ∧
        replayed.Sublist piece.replay) ∨
      (piece.replayed rhythm auftakt index = .error .missingMark ∧ piece.Lacks index) ∨
      piece.replayed rhythm auftakt index = .error .endlessCoda ∧ index.HasReversedCodas := by
  by_cases hkind : piece.kind = .bare
  · exact .inl ⟨[], by rw [replayed, hkind], List.nil_sublist _⟩
  · rw [replayed_of_kind_ne_bare rhythm auftakt hkind]
    rcases replayStart_cases rhythm auftakt with ⟨start, hstart⟩ | ⟨hmissing, hlacks⟩
    · rw [hstart]
      rcases navigate_outcomes index
        (piece.replay.dropWhile fun position ↦ decide ((position : Int) < start)) with
        ⟨sounding, hsounding, hsublist⟩ | ⟨hmissing, hcodas⟩ | hendless
      · exact .inl ⟨sounding, hsounding, hsublist.trans (List.dropWhile_sublist _)⟩
      · exact .inr (.inl ⟨hmissing, .inr ⟨hkind, hcodas⟩⟩)
      · exact .inr (.inr hendless)
    · exact .inr (.inl ⟨by rw [hmissing]; rfl, .inl hlacks⟩)

/-- A piece is played at positions of bars, first at those of the first playing, or the index lacks
a mark, or its Codas are reversed. -/
theorem resolveWith_outcomes (piece : Structure) (rhythm : Option Rhythm) (auftakt : Bool)
    (index : MarkerIndex) :
    (∃ replayed, piece.resolveWith rhythm auftakt index =
          .ok ⟨piece.entriesAfter [] (piece.forward ++ replayed)⟩ ∧
        ∀ p ∈ piece.forward ++ replayed, piece.IsLookUp p) ∨
      (piece.resolveWith rhythm auftakt index = .error .missingMark ∧ piece.Lacks index) ∨
      piece.resolveWith rhythm auftakt index = .error .endlessCoda ∧ index.HasReversedCodas := by
  rcases replayed_outcomes piece rhythm auftakt index with ⟨replayed, hreplayed, hsublist⟩ |
    ⟨hmissing, hlacks⟩ | ⟨hendless, hreversed⟩
  · refine .inl ⟨replayed, by rw [resolveWith, hreplayed]; rfl, fun p hp ↦ ?_⟩
    rcases List.mem_append.mp hp with hp | hp
    · exact isLookUp_of_mem_forward hp
    · exact isLookUp_of_mem_replay (hsublist.subset hp)
  · exact .inr (.inl ⟨by rw [resolveWith, hmissing]; rfl, hlacks⟩)
  · exact .inr (.inr ⟨by rw [resolveWith, hendless]; rfl, hreversed⟩)

/-- By an index whose Codas are not reversed a piece is played with bars that are found, or the
index lacks a mark. -/
theorem resolveWith_cases (rhythm : Option Rhythm) (auftakt : Bool)
    (hordered : ¬ index.HasReversedCodas) :
    (∃ order, piece.resolveWith rhythm auftakt index = .ok order ∧
        ∀ entry ∈ order.entries, piece.IsFound entry) ∨
      piece.resolveWith rhythm auftakt index = .error .missingMark ∧ piece.Lacks index := by
  rcases resolveWith_outcomes piece rhythm auftakt index with ⟨replayed, horder, hlookup⟩ | hmissing |
    ⟨-, hreversed⟩
  · exact .inl ⟨_, horder, fun entry hentry ↦ isFound_of_mem_entriesAfter hlookup hentry⟩
  · exact .inr hmissing
  · exact absurd hreversed hordered

/-! ### Resolution by the collected index -/

/-- A piece cannot be played by its own marks: it is a Dal Segno piece without a Segno, it has a
first Coda but no second one, the first of its second Codas is not behind the first of its first
Codas, or two of its bars share an id. -/
inductive IsInconsistent (piece : Structure) : Prop
  | lacksSegno (hkind : piece.kind = .dalSegno) (hsegno : ∀ p, ¬ piece.StandsAt (·.has .segno) p)
  | lacksSecondCoda {first : Nat} (hfirst : piece.StandsAt (·.has .codaFirst) first)
    (hsecond : ∀ p, ¬ piece.StandsAt (·.has .codaSecond) p)
  | reversesCodas {first second : Nat} (hfirst : piece.StandsFirstAt (·.has .codaFirst) first)
    (hsecond : piece.StandsFirstAt (·.has .codaSecond) second) (hle : second ≤ first)
  | repeatsIds (hids : ¬ piece.ids.Nodup)

/-- No Segno is indexed just if no bar carries it. -/
theorem collect_segno_eq_none_iff :
    (MarkerIndex.collect piece).segno = none ↔ ∀ p, ¬ piece.StandsAt (·.has .segno) p :=
  Option.map_eq_none_iff.trans positionOf_eq_none_iff

/-- The collected Codas are paired just if the first of the second Codas is behind the first of the
first. -/
theorem collect_unpairedCoda?_eq_none_iff :
    (MarkerIndex.collect piece).unpairedCoda? = none ↔
      ∀ first, piece.StandsFirstAt (·.has .codaFirst) first →
        ∃ second, piece.StandsFirstAt (·.has .codaSecond) second ∧ first < second := by
  rw [MarkerIndex.unpairedCoda?_eq_none_iff]
  simp only [MarkerIndex.collect, Option.map_eq_some_iff, positionOf_eq_some_iff]
  constructor
  · intro hpaired first hfirst
    obtain ⟨-, ⟨second, hsecond, rfl⟩, hlt⟩ := hpaired first ⟨first, hfirst, rfl⟩
    exact ⟨second, hsecond, Int.ofNat_lt.mp hlt⟩
  · rintro hpaired - ⟨first, hfirst, rfl⟩
    obtain ⟨second, hsecond, hlt⟩ := hpaired first hfirst
    exact ⟨second, ⟨second, hsecond, rfl⟩, Int.ofNat_lt.mpr hlt⟩

/-- Resolution refuses just the inconsistent pieces. -/
theorem inconsistency_ne_none_iff : piece.inconsistency ≠ none ↔ piece.IsInconsistent := by
  rw [Ne, inconsistency_eq_none_iff, collect_segno_eq_none_iff, collect_unpairedCoda?_eq_none_iff]
  constructor
  · intro hrefused
    by_contra hconsistent
    refine hrefused ⟨fun ⟨hkind, hsegno⟩ ↦ hconsistent (.lacksSegno hkind hsegno),
      fun first hfirst ↦ ?_, by_contra fun hids ↦ hconsistent (.repeatsIds hids)⟩
    cases hposition : piece.positionOf .codaSecond with
    | none =>
      exact absurd (.lacksSecondCoda hfirst.1 (positionOf_eq_none_iff.mp hposition)) hconsistent
    | some second =>
      have hsecond := positionOf_eq_some_iff.mp hposition
      exact ⟨second, hsecond, Nat.lt_of_not_le fun hle ↦
        hconsistent (.reversesCodas hfirst hsecond hle)⟩
  · rintro hbad ⟨hsegno, hpaired, hids⟩
    cases hbad with
    | lacksSegno hkind hnone => exact hsegno ⟨hkind, hnone⟩
    | lacksSecondCoda hcoda hnone =>
      obtain ⟨first, hfirst⟩ := hcoda.exists_first
      obtain ⟨second, hsecond, -⟩ := hpaired first hfirst
      exact hnone second hsecond.1
    | reversesCodas hfirst hsecond hle =>
      obtain ⟨later, hlater, hlt⟩ := hpaired _ hfirst
      rw [hsecond.eq hlater] at hle
      exact absurd hlt (Nat.not_lt.mpr hle)
    | repeatsIds hrepeated => exact hrepeated hids

/-- What resolution refuses, it refuses as inconsistent. -/
theorem isInconsistency_of_inconsistency {error : ResolutionError}
    (h : piece.inconsistency = some error) : error.IsInconsistency := by
  unfold inconsistency at h
  dsimp only at h
  split at h
  · cases h
    trivial
  · split at h
    · cases h
      trivial
    · split at h <;> cases h
      trivial

/-- The collected index of a consistent piece has what the replay needs, and its Codas are not
reversed. -/
theorem not_lacks_collect (hnone : piece.inconsistency = none) :
    ¬ piece.Lacks (MarkerIndex.collect piece) ∧ ¬ (MarkerIndex.collect piece).HasReversedCodas := by
  obtain ⟨hsegno, hpaired, -⟩ := inconsistency_eq_none_iff.mp hnone
  rw [MarkerIndex.unpairedCoda?_eq_none_iff] at hpaired
  constructor
  · rintro (hlacks | ⟨-, hfirst, hsecond⟩)
    · exact hsegno hlacks
    · obtain ⟨first, hfirst⟩ := Option.ne_none_iff_exists'.mp hfirst
      obtain ⟨second, hsome, -⟩ := hpaired first hfirst
      rw [hsecond] at hsome
      cases hsome
  · rintro ⟨first, second, hfirst, hsecond, hlt⟩
    obtain ⟨later, hlater, hle⟩ := hpaired first hfirst
    rw [hsecond, Option.some.injEq] at hlater
    omega

/-- A consistent piece is played with bars that are found. -/
theorem exists_resolve_eq_ok (rhythm : Option Rhythm) (auftakt : Bool)
    (hnone : piece.inconsistency = none) :
    ∃ order, piece.resolve rhythm auftakt = .ok order ∧
      ∀ entry ∈ order.entries, piece.IsFound entry := by
  obtain ⟨hhas, hordered⟩ := not_lacks_collect hnone
  rw [resolve_of_inconsistency_eq_none hnone]
  exact (resolveWith_cases rhythm auftakt hordered).resolve_right fun h ↦ hhas h.2

/-- Resolution of a piece that was not validated says that it is inconsistent just if it is so, and
otherwise plays it, with bars that are found. By an index made by hand, if its Codas are not
reversed, resolution ends as well: the piece is played, or it says that a mark is missing, and then
it is the Segno of a Dal Segno or the second Coda after an indexed first one. -/
theorem resolve_fails_iff_isInconsistent (piece : Structure) (rhythm : Option Rhythm)
    (auftakt : Bool) :
    ((∃ error, piece.resolve rhythm auftakt = .error error ∧ error.IsInconsistency) ↔
        piece.IsInconsistent) ∧
      (¬ piece.IsInconsistent →
        ∃ order, piece.resolve rhythm auftakt = .ok order ∧
          ∀ entry ∈ order.entries, piece.IsFound entry) ∧
      ∀ index : MarkerIndex, ¬ index.HasReversedCodas →
        (∃ order, piece.resolveWith rhythm auftakt index = .ok order ∧
            ∀ entry ∈ order.entries, piece.IsFound entry) ∨
          piece.resolveWith rhythm auftakt index = .error .missingMark ∧
            (piece.kind = .dalSegno ∧ index.segno = none ∨
              piece.kind ≠ .bare ∧ index.codaFirst ≠ none ∧ index.codaSecond = none) := by
  refine ⟨?_, fun hconsistent ↦ ?_, fun index hordered ↦ resolveWith_cases rhythm auftakt hordered⟩
  · rw [← inconsistency_ne_none_iff]
    constructor
    · rintro ⟨error, herror, -⟩ hnone
      obtain ⟨order, horder, -⟩ := exists_resolve_eq_ok rhythm auftakt hnone
      rw [herror] at horder
      cases horder
    · intro hrefused
      obtain ⟨error, herror⟩ := Option.ne_none_iff_exists'.mp hrefused
      exact ⟨error, by rw [resolve, herror], isInconsistency_of_inconsistency herror⟩
  · rw [← inconsistency_ne_none_iff, not_ne_iff] at hconsistent
    exact exists_resolve_eq_ok rhythm auftakt hconsistent

/-- A piece put together by hand: a Dal Segno piece that has two Segnos, one of them in a lone
ending, and ends with a first Coda and a Da Capo. -/
def pieceByHand : Structure :=
  ofRegions
    ⟨.varied (.straight ⟨markedBar "A" .segno, []⟩) ⟨⟨markedBar "B" .segno, []⟩, []⟩,
      [.plain (.straight ⟨markedBar "C" .codaFirst, [markedBar "D" .daCapo]⟩)]⟩
    .dalSegno

/-- An index made by hand: its Segno lies before the piece, its Fine and its second Coda behind it.
-/
def indexByHand : MarkerIndex := ⟨some (-1), some 9, some 2, some 40, none⟩

/-- The piece made by hand is refused, but played by the index made by hand; the piece al Coda is
consistent and needs no index. -/
theorem resolve_pieceByHand :
    (pieceByHand.IsInconsistent ∧
        ∃ error, pieceByHand.resolve none false = .error error ∧ error.IsInconsistency) ∧
      (¬ indexByHand.HasReversedCodas ∧
        ∃ order, pieceByHand.resolveWith none false indexByHand = .ok order ∧
          ∀ entry ∈ order.entries, pieceByHand.IsFound entry) ∧
      ¬ pieceAlCoda.IsInconsistent ∧
        ∃ order, pieceAlCoda.resolve none false = .ok order ∧
          ∀ entry ∈ order.entries, pieceAlCoda.IsFound entry := by
  obtain ⟨hrefused, -, hindexed⟩ := resolve_fails_iff_isInconsistent pieceByHand none false
  have hbad : pieceByHand.IsInconsistent := by
    rw [← inconsistency_ne_none_iff]
    decide
  have hordered : ¬ indexByHand.HasReversedCodas := by
    rintro ⟨first, second, hfirst, hsecond, hlt⟩
    cases hfirst
    cases hsecond
    exact absurd hlt (by decide)
  have hgood : ¬ pieceAlCoda.IsInconsistent := by
    rw [← inconsistency_ne_none_iff]
    decide
  refine ⟨⟨hbad, hrefused.mpr hbad⟩, ⟨hordered, ?_⟩, hgood,
    (resolve_fails_iff_isInconsistent pieceAlCoda none false).2.1 hgood⟩
  exact (hindexed indexByHand hordered).resolve_right fun h ↦ absurd h.2 (by decide)

/-- Played by the index made by hand, the piece ends where the first Coda stands. -/
example : (pieceByHand.resolveWith none false indexByHand).map
    (fun order ↦ order.entries.map PlayedBar.position) = .ok [0, 1, 2, 3, 0, 1] := by
  cbv

/-- With the second Coda before the first, the replay never leaves the first. -/
example : pieceByHand.resolveWith none false ⟨some 0, none, some 2, some 1, none⟩ =
    .error .endlessCoda := by
  cbv

end Structure

end ScoreRepeats
