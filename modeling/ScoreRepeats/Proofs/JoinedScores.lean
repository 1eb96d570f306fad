import ScoreRepeats.Proofs.CanonicalGrouping
import ScoreRepeats.Proofs.RecastPieces

/-!
# Scores written one after another

Two scores without a jump can be written one after the other. If a region ends where they meet
(`MeetAtBoundary`), nothing that the first leaves open has an effect on the second: the regions of
the whole are those of the first and then those of the second (`Structure.ofBars_append`).

A piece with the regions of one piece and then those of another (`Structure.Joins`) is played
accordingly. The positions of the second piece are moved behind those of the first
(`Structure.Joins.sounding_eq`), and the passes are counted as before, since the first leaves no
count at a position of the second (`Structure.Joins.entriesAfter_sounding`).
-/

set_option autoImplicit false
set_option relaxedAutoImplicit false

namespace ScoreRepeats

/-- A region ends where two scores meet: the last bar of the first belongs to a variation or ends a
repeat, or the first bar of the second starts a repeat. -/
def MeetAtBoundary (first second : List Bar) : Prop :=
  (∃ bar ∈ first.getLast?, bar.variation ≠ none ∨ bar.has .repeatEnd = true) ∨
    ∃ bar ∈ second.head?, bar.has .repeatStart = true

/-- The same sounding of a bar in a score with more bars in front. -/
def PlayedBar.later (offset : Nat) (entry : PlayedBar) : PlayedBar :=
  { entry with position := offset + entry.position }

theorem PlayedBar.later_zero (entry : PlayedBar) : entry.later 0 = entry := by
  simp [later]

/-- The elements of one list, then those of another. -/
def NonemptyList.append {α : Type} (first second : NonemptyList α) : NonemptyList α :=
  ⟨first.head, first.tail ++ second.toList⟩

@[simp] theorem NonemptyList.toList_append {α : Type} (first second : NonemptyList α) :
    (first.append second).toList = first.toList ++ second.toList := rfl

/-! ### Regions on both sides of a boundary -/

/-- A canonical region whose last bar belongs to a variation or ends a repeat may stand before any
other. -/
theorem Region.IsCanonical.precedes {region next : Region} (hcanonical : region.IsCanonical)
    (hclosing : region.lastBar.variation ≠ none ∨ region.lastBar.has .repeatEnd = true) :
    region.Precedes next := by
  rintro ⟨run, rfl⟩
  obtain ⟨unnumbered, -, unended⟩ := hcanonical run.last run.last_mem
  rcases hclosing with hnumbered | hended
  · exact absurd unnumbered hnumbered
  · exact absurd (hended.symm.trans unended) (by decide)

/-- Canonical regions may be followed by others if the last of them may stand before the first of
the others. -/
theorem IsCanonical.append {first second : NonemptyList Region} (hfirst : IsCanonical first.toList)
    (hsecond : IsCanonical second.toList) (hmeet : first.last.Precedes second.head) :
    IsCanonical (first.append second).toList := by
  rw [NonemptyList.toList_append]
  refine ⟨List.forall_mem_append.mpr ⟨hfirst.each, hsecond.each⟩, ?_⟩
  refine List.isChain_append.mpr ⟨hfirst.joined, hsecond.joined, ?_⟩
  rw [first.getLast?_toList]
  rintro _ ⟨⟩ _ ⟨⟩
  exact hmeet

/-! ### Positions further behind -/

/-- Of things placed one after another, the later ones are placed behind all the earlier ones. -/
theorem placedFrom_append {α : Type} (size : α → Nat) (first : Nat) (items more : List α) :
    placedFrom size first (items ++ more) =
      placedFrom size first items ++ placedFrom size (first + (items.map size).sum) more := by
  induction items generalizing first with
  | nil => rfl
  | cons item rest ih =>
    simp only [List.cons_append, placedFrom, ih, List.map_cons, List.sum_cons, Nat.add_assoc]

/-- Things placed from a later position on are placed as before, but further behind. -/
theorem placedFrom_add {α : Type} (size : α → Nat) (offset first : Nat) (items : List α) :
    placedFrom size (offset + first) items =
      (placedFrom size first items).map fun place ↦ (offset + place.1, place.2) := by
  induction items generalizing first with
  | nil => rfl
  | cons item rest ih => simp only [placedFrom, List.map_cons, Nat.add_assoc, ih]

/-- A passage that stands further behind is played at positions further behind. -/
theorem Passage.sounding_add (passage : Passage) (offset first : Nat) :
    passage.sounding (offset + first) = (passage.sounding first).map (offset + ·) := by
  cases passage <;> simp only [sounding, span, List.map_append, List.map_add_range']

/-- A region that stands further behind is played at positions further behind. -/
theorem Region.sounding_add (region : Region) (offset first : Nat) :
    region.sounding (offset + first) = (region.sounding first).map (offset + ·) := by
  cases region with
  | plain passage => exact passage.sounding_add offset first
  | varied common variations =>
    simp only [sounding, placedVariations, Nat.add_assoc, placedFrom_add, List.flatMap_map,
      List.map_flatMap, List.map_append, common.sounding_add, List.map_add_range']

namespace Structure

/-- A piece has the regions of one piece and then those of another. -/
def Joins (before after piece : Structure) : Prop :=
  piece.regions.toList = before.regions.toList ++ after.regions.toList

variable {piece before after : Structure}

/-! ### Grouping two scores -/

/-- If a region ends where two scores meet, both together are grouped as each of them is. -/
theorem ofBars_append {first second : List Bar} (hfirst : ofBars first = .ok before)
    (hsecond : ofBars second = .ok after)
    (hdisjoint : (first.map Bar.id).Disjoint (second.map Bar.id))
    (hmeet : MeetAtBoundary first second) :
    ∃ piece, ofBars (first ++ second) = .ok piece ∧ Joins before after piece := by
  rw [MeetAtBoundary, ← (bars_of_ofBars hfirst).1, ← (bars_of_ofBars hsecond).1,
    before.getLast?_bars, after.head?_bars] at hmeet
  obtain ⟨hnodup, regions, hcanonical, hbars, rfl⟩ := ofBars_eq_ok_iff_exists_isCanonical.mp hfirst
  obtain ⟨hnodup', regions', hcanonical', hbars', rfl⟩ :=
    ofBars_eq_ok_iff_exists_isCanonical.mp hsecond
  have hprecedes : regions.last.Precedes regions'.head := by
    rcases hmeet with ⟨_, ⟨⟩, hclosing⟩ | ⟨_, ⟨⟩, hstart⟩
    · rw [lastBar, regions_ofRegions] at hclosing
      exact (hcanonical.each _ regions.last_mem).precedes hclosing
    · rw [firstBar, regions_ofRegions] at hstart
      exact fun _ ↦ hstart
  refine ⟨ofRegions (regions.append regions') (Kind.ofBars (first ++ second)),
    ofBars_eq_ok_iff_exists_isCanonical.mpr
      ⟨?_, regions.append regions', hcanonical.append hcanonical' hprecedes, ?_, rfl⟩, ?_⟩
  · rw [List.map_append]
    exact List.nodup_append'.mpr ⟨hnodup, hnodup', hdisjoint⟩
  · rw [NonemptyList.toList_append, List.flatMap_append, hbars, hbars']
  · simp only [Joins, regions_ofRegions, NonemptyList.toList_append]

/-- A score without a jump instruction is of the bare kind. -/
theorem kind_eq_bare {bars : List Bar} (hpiece : ofBars bars = .ok piece)
    (hnone : ∀ bar ∈ bars, bar.hasJump = false) : piece.kind = .bare := by
  obtain ⟨-, regions, -, -, rfl⟩ := ofBars_eq_ok_iff_exists_isCanonical.mp hpiece
  have hfind : bars.find? Bar.hasJump = none :=
    List.find?_eq_none.mpr fun bar hbar ↦ by simp [hnone bar hbar]
  show Kind.ofBars bars = .bare
  rw [Kind.ofBars, hfind]

/-! ### The bars and positions of a joined piece -/

/-- The bars of a joined piece are those of the first piece and then those of the second. -/
theorem Joins.bars_eq (hjoin : Joins before after piece) :
    piece.bars = before.bars ++ after.bars := by
  rw [bars, hjoin, List.flatMap_append]
  rfl

/-- In a joined piece the bars of the first piece stand where they stood. -/
theorem Joins.barAt_eq (hjoin : Joins before after piece) {p : Nat} (hp : p < before.size) :
    piece.barAt p = before.barAt p := by
  have hbar : before.bars[p]? = some before.bars[p] := List.getElem?_eq_getElem hp
  have hjoined : piece.bars[p]? = some before.bars[p] := by
    rw [hjoin.bars_eq, List.getElem?_append_left hp, hbar]
  rw [Structure.barAt_eq hbar, Structure.barAt_eq hjoined]

/-- In a joined piece the bars of the second piece stand behind those of the first. -/
theorem Joins.barAt_add (hjoin : Joins before after piece) {p : Nat} (hp : p < after.size) :
    piece.barAt (before.size + p) = after.barAt p := by
  have hbar : after.bars[p]? = some after.bars[p] := List.getElem?_eq_getElem hp
  have hjoined : piece.bars[before.size + p]? = some after.bars[p] := by
    rw [hjoin.bars_eq, size, List.getElem?_append_right (Nat.le_add_right _ _),
      Nat.add_sub_cancel_left, hbar]
  rw [Structure.barAt_eq hbar, Structure.barAt_eq hjoined]

/-- A joined piece is played as the first piece, and then as the second further behind. -/
theorem Joins.sounding_eq (hjoin : Joins before after piece) :
    piece.sounding = before.sounding ++ after.sounding.map (before.size + ·) := by
  have hsize : (before.regions.toList.map fun region ↦ region.bars.length).sum = before.size := by
    rw [size, bars, List.length_flatMap]
  have hplaced : piece.placed =
      before.placed ++ after.placed.map fun place ↦ (before.size + place.1, place.2) := by
    rw [placed, hjoin, placedFrom_append, hsize, Nat.zero_add, placed, placed, ← placedFrom_add,
      Nat.add_zero]
  rw [sounding, hplaced, List.flatMap_append, List.flatMap_map, sounding, sounding,
    List.map_flatMap]
  simp only [Region.sounding_add]

/-! ### The entries of a joined piece -/

/-- Where the bars of one piece stand further behind in another, and each position had as many
entries before, the entries are the same ones further behind. -/
theorem entriesAfter_map_add {offset : Nat} {positions earlier earlier' : List Nat}
    (hbar : ∀ p ∈ positions, piece.barAt (offset + p) = after.barAt p)
    (hcount : ∀ p, earlier'.count (offset + p) = earlier.count p) :
    piece.entriesAfter earlier' (positions.map (offset + ·)) =
      (after.entriesAfter earlier positions).map (PlayedBar.later offset) := by
  induction positions generalizing earlier earlier' with
  | nil => rfl
  | cons p rest ih =>
    obtain ⟨hp, hrest⟩ := List.forall_mem_cons.mp hbar
    have hnext : ∀ q, ((offset + p) :: earlier').count (offset + q) = (p :: earlier).count q := by
      intro q
      simp only [List.count_cons, hcount, beq_iff_eq, Nat.add_left_cancel_iff]
    simp only [List.map_cons, entriesAfter, hp, hcount, ih hrest hnext, PlayedBar.later]

/-- The first playing of a joined piece has the entries of the first piece, and then those of the
second further behind. -/
theorem Joins.entriesAfter_sounding (hjoin : Joins before after piece) :
    piece.entriesAfter [] piece.sounding = before.entriesAfter [] before.sounding ++
      (after.entriesAfter [] after.sounding).map (PlayedBar.later before.size) := by
  have hbefore :
      piece.entriesAfter [] before.sounding = before.entriesAfter [] before.sounding := by
    have hbar : ∀ p ∈ before.sounding, piece.barAt (0 + p) = before.barAt p := by
      intro p hp
      rw [Nat.zero_add, hjoin.barAt_eq (lt_size_of_mem_sounding hp)]
    have hentries : piece.entriesAfter [] (before.sounding.map (0 + ·)) =
        (before.entriesAfter [] before.sounding).map (PlayedBar.later 0) :=
      entriesAfter_map_add hbar fun _ ↦ rfl
    rwa [List.map_id'' Nat.zero_add, List.map_id'' PlayedBar.later_zero] at hentries
  -- The first piece has no entries at positions of the second, so no pass is counted on.
  have hcount : ∀ p, (before.sounding.reverse ++ []).count (before.size + p) = [].count p := by
    intro p
    refine List.count_eq_zero_of_not_mem fun hmem ↦ ?_
    rw [List.append_nil, List.mem_reverse] at hmem
    have hlt := lt_size_of_mem_sounding hmem
    omega
  rw [hjoin.sounding_eq, entriesAfter_append, hbefore,
    entriesAfter_map_add (fun p hp ↦ hjoin.barAt_add (lt_size_of_mem_sounding hp)) hcount]

/-! ### The performance of a joined piece -/

variable {rhythm : Option Rhythm} {auftakt : Bool}

/-- Where a bare piece keeps the rules, no bar carries a mark of navigation. -/
theorem KeepsRules.countP_eq_zero_of_bare (hkeeps : piece.KeepsRules rhythm auftakt)
    (hbare : piece.kind = .bare) :
    piece.bars.countP (·.has .segno) = 0 ∧ piece.bars.countP (·.has .fine) = 0 ∧
      piece.bars.countP (·.has .codaFirst) = 0 ∧ piece.bars.countP (·.has .codaSecond) = 0 := by
  have hsegno := hkeeps.segno
  have hfine := hkeeps.fine.1
  rw [hbare, if_neg (by decide)] at hsegno
  rw [if_pos hbare] at hfine
  have hcoda := hkeeps.coda.resolve_right fun hpair ↦ hpair.1 hbare
  exact ⟨hsegno, Nat.le_zero.mp hfine, hcoda⟩

/-- A bare piece without jump instructions that is joined from pieces which keep the rules keeps
them too, if its ids all differ. -/
theorem Joins.keepsRules (hjoin : Joins before after piece) (distinct : piece.ids.Nodup)
    (hbare : piece.kind = .bare) (hbefore : before.kind = .bare) (hafter : after.kind = .bare)
    (hnone : ∀ bar ∈ piece.bars, bar.hasJump = false) (hkeeps : before.KeepsRules rhythm auftakt)
    (hkeeps' : after.KeepsRules rhythm auftakt) : piece.KeepsRules rhythm auftakt := by
  obtain ⟨hsegno, hfine, hfirst, hsecond⟩ := hkeeps.countP_eq_zero_of_bare hbefore
  obtain ⟨hsegno', hfine', hfirst', hsecond'⟩ := hkeeps'.countP_eq_zero_of_bare hafter
  have hjump : piece.bars.countP Bar.hasJump = 0 :=
    List.countP_eq_zero.mpr fun bar hbar ↦ by simp [hnone bar hbar]
  have hcount : ∀ test : Bar → Bool, before.bars.countP test = 0 → after.bars.countP test = 0 →
      piece.bars.countP test = 0 := by
    intro test htest htest'
    rw [hjoin.bars_eq, List.countP_append, htest, htest']
  have hnoFine := hcount _ hfine hfine'
  refine ⟨distinct, ⟨by omega, fun p hp ↦ absurd hp (countP_eq_zero_iff.mp hjump p)⟩, ?_,
    ⟨by omega, fun _ fine _ hp ↦ absurd hp (countP_eq_zero_iff.mp hnoFine fine)⟩,
    .inl ⟨hcount _ hfirst hfirst', hcount _ hsecond hsecond'⟩, ?_, ?_⟩
  · rw [hbare, if_neg (by decide)]
    exact hcount _ hsegno hsegno'
  · intro common variations hmem
    rw [hjoin, List.mem_append] at hmem
    exact hmem.elim (hkeeps.variations common variations) (hkeeps'.variations common variations)
  · intro _ hcapo
    exact absurd (hbare.symm.trans hcapo) (by decide)

/-- The piece of a score that is performed keeps the rules. -/
theorem exists_keepsRules_of_perform {bars : List Bar} {order : PlayingOrder}
    (horder : perform bars rhythm auftakt = .ok order) :
    ∃ piece, ofBars bars = .ok piece ∧ piece.KeepsRules rhythm auftakt := by
  cases hpiece : ofBars bars with
  | error violation => simp [perform, hpiece] at horder
  | ok piece =>
    refine ⟨piece, rfl, firstViolation_eq_none_iff.mp ?_⟩
    cases hviolation : piece.firstViolation rhythm auftakt with
    | none => rfl
    | some violation =>
      rw [perform_eq_error hpiece hviolation] at horder
      cases horder

/-- Without a jump, a piece that keeps the rules is performed by its first playing alone. -/
theorem KeepsRules.perform_eq_of_bare {bars : List Bar} (hpiece : ofBars bars = .ok piece)
    (hkeeps : piece.KeepsRules rhythm auftakt) (hbare : piece.kind = .bare) :
    perform bars rhythm auftakt = .ok ⟨piece.entriesAfter [] piece.sounding⟩ := by
  obtain ⟨replayed, hreplayed, -, hperform⟩ := hkeeps.perform_eq_ok hpiece
  rw [Structure.replayed, hbare] at hreplayed
  obtain rfl := Except.ok.inj hreplayed
  rwa [List.append_nil] at hperform

/-- Two scores without jumps, and with no id in common, of which each is performed and which meet
where a region ends, are grouped and performed one after the other. The regions of both together are
those of the first and then those of the second. The order is that of the first, and then that of
the second in the same passes, each entry as many positions later as the first score has bars. -/
theorem perform_append_of_meetAtBoundary {first second : List Bar} {order order' : PlayingOrder}
    (hnone : ∀ bar ∈ first ++ second, bar.hasJump = false)
    (hdisjoint : (first.map Bar.id).Disjoint (second.map Bar.id))
    (horder : perform first rhythm auftakt = .ok order)
    (horder' : perform second rhythm auftakt = .ok order') (hmeet : MeetAtBoundary first second) :
    ∃ before after piece, ofBars first = .ok before ∧ ofBars second = .ok after ∧
      ofBars (first ++ second) = .ok piece ∧
      piece.regions.toList = before.regions.toList ++ after.regions.toList ∧
      perform (first ++ second) rhythm auftakt =
        .ok ⟨order.entries ++ order'.entries.map (PlayedBar.later first.length)⟩ := by
  obtain ⟨before, hbefore, hkeeps⟩ := exists_keepsRules_of_perform horder
  obtain ⟨after, hafter, hkeeps'⟩ := exists_keepsRules_of_perform horder'
  obtain ⟨piece, hpiece, hjoin⟩ := ofBars_append hbefore hafter hdisjoint hmeet
  obtain ⟨hnone₁, hnone₂⟩ := List.forall_mem_append.mp hnone
  obtain ⟨hbars, distinct⟩ := bars_of_ofBars hpiece
  have hbare := kind_eq_bare hpiece hnone
  have hbare₁ := kind_eq_bare hbefore hnone₁
  have hbare₂ := kind_eq_bare hafter hnone₂
  have hrules : piece.KeepsRules rhythm auftakt :=
    hjoin.keepsRules distinct hbare hbare₁ hbare₂ (hbars ▸ hnone) hkeeps hkeeps'
  rw [hkeeps.perform_eq_of_bare hbefore hbare₁] at horder
  rw [hkeeps'.perform_eq_of_bare hafter hbare₂] at horder'
  obtain rfl := Except.ok.inj horder
  obtain rfl := Except.ok.inj horder'
  have hsize : before.size = first.length := by
    rw [size, (bars_of_ofBars hbefore).1]
  refine ⟨before, after, piece, hbefore, hafter, hpiece, hjoin, ?_⟩
  rw [hrules.perform_eq_of_bare hpiece hbare, hjoin.entriesAfter_sounding, hsize]

/-- A bar with two endings. -/
def scoreEndingInVariation : List Bar :=
  [unmarkedBar "A", variationBar "B" 1 some_one_ne_some_zero,
    variationBar "C" 2 some_two_ne_some_zero]

/-- A repeat without a repeat start. -/
def scoreOfRepeat : List Bar := [unmarkedBar "D", endingBar "E"]

/-- After the bar with two endings, the repeat reaches back no further than to its own first bar. -/
theorem perform_scoreEndingInVariation_append :
    (∀ bar ∈ scoreEndingInVariation ++ scoreOfRepeat, bar.hasJump = false) ∧
      (scoreEndingInVariation.map Bar.id).Disjoint (scoreOfRepeat.map Bar.id) ∧
      MeetAtBoundary scoreEndingInVariation scoreOfRepeat ∧
      perform scoreEndingInVariation none false =
        .ok ⟨[⟨"A", 1, 0, 960⟩, ⟨"B", 1, 1, 960⟩, ⟨"A", 2, 0, 960⟩, ⟨"C", 1, 2, 960⟩]⟩ ∧
      perform scoreOfRepeat none false =
        .ok ⟨[⟨"D", 1, 0, 960⟩, ⟨"E", 1, 1, 960⟩, ⟨"D", 2, 0, 960⟩, ⟨"E", 2, 1, 960⟩]⟩ ∧
      perform (scoreEndingInVariation ++ scoreOfRepeat) none false =
        .ok ⟨[⟨"A", 1, 0, 960⟩, ⟨"B", 1, 1, 960⟩, ⟨"A", 2, 0, 960⟩, ⟨"C", 1, 2, 960⟩,
          ⟨"D", 1, 3, 960⟩, ⟨"E", 1, 4, 960⟩, ⟨"D", 2, 3, 960⟩, ⟨"E", 2, 4, 960⟩]⟩ := by
  have hnone : ∀ bar ∈ scoreEndingInVariation ++ scoreOfRepeat, bar.hasJump = false := by decide
  have hdisjoint : (scoreEndingInVariation.map Bar.id).Disjoint (scoreOfRepeat.map Bar.id) :=
    List.disjoint_left.mpr (by decide)
  have hmeet : MeetAtBoundary scoreEndingInVariation scoreOfRepeat :=
    .inl ⟨_, rfl, .inl (by decide)⟩
  have horder : perform scoreEndingInVariation none false =
      .ok ⟨[⟨"A", 1, 0, 960⟩, ⟨"B", 1, 1, 960⟩, ⟨"A", 2, 0, 960⟩, ⟨"C", 1, 2, 960⟩]⟩ := rfl
  have horder' : perform scoreOfRepeat none false =
      .ok ⟨[⟨"D", 1, 0, 960⟩, ⟨"E", 1, 1, 960⟩, ⟨"D", 2, 0, 960⟩, ⟨"E", 2, 1, 960⟩]⟩ := rfl
  obtain ⟨-, -, -, -, -, -, -, hperform⟩ :=
    perform_append_of_meetAtBoundary hnone hdisjoint horder horder' hmeet
  exact ⟨hnone, hdisjoint, hmeet, horder, horder', hperform⟩

end Structure

end ScoreRepeats
