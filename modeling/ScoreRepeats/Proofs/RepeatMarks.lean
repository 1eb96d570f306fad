import ScoreRepeats.Proofs.RecastPieces

/-!
# Repeat marks that are only notation

Two kinds of repeat marks tell a reader what the rest of the score says already. A repeat end on a bar
of a variation has no part in grouping, nor in anything after it. And a repeat that has no start
reaches back to the region before it, as does the passage that variations share. To write down the
start where it is understood changes nothing: the regions of the score, with the marked bars in them,
are canonical again (`Region.IsCanonical.mapBars`), so they are the regions that grouping finds
(`Structure.ofBars_map_of_marksStarts`).
-/

set_option autoImplicit false
set_option relaxedAutoImplicit false

namespace ScoreRepeats

/-- Two bars that differ in one marker at most. -/
structure Bar.SameBut (marker : Marker) (bar bar' : Bar) : Prop where
  id : bar'.id = bar.id
  ticks : bar'.ticks = bar.ticks
  variation : bar'.variation = bar.variation
  has : ∀ other, other ≠ marker → bar'.has other = bar.has other

/-- Two bars that are the same, or belong to a variation and differ in a repeat end at most. -/
def Bar.SameButVariationEnd (bar bar' : Bar) : Prop :=
  bar' = bar ∨ bar.variation ≠ none ∧ bar.SameBut .repeatEnd bar'

/-- A repeat, or a passage with variations. -/
def Region.IsRepeating : Region → Prop
  | .plain (.straight _) => False
  | .plain (.repeated _) | .varied _ _ => True

/-- Two bars that are the same, or the first bar of a repeat or of a passage with variations and the
same bar with a repeat start. -/
def Structure.MarksStart (piece : Structure) (bar bar' : Bar) : Prop :=
  bar' = bar ∨ (∃ region ∈ piece.regions.toList, region.IsRepeating ∧ region.firstBar = bar) ∧
    bar.SameBut .repeatStart bar' ∧ bar'.has .repeatStart = true

/-! ### Repeat ends in variations -/

/-- The markers without a repeat end. -/
def MarkerSet.withoutEnd (markers : MarkerSet) : MarkerSet := { markers with repeatEnd := false }

theorem MarkerSet.has_withoutEnd (markers : MarkerSet) (marker : Marker) :
    markers.withoutEnd.has marker = (decide (marker ≠ .repeatEnd) && markers.has marker) := by
  cases marker <;> rfl

/-- Where no two markers exclude each other, none of fewer markers do. -/
theorem MarkerSet.isCompatible_of_has_imp {markers fewer : MarkerSet}
    (hfewer : ∀ marker, fewer.has marker = true → markers.has marker = true)
    (h : markers.isCompatible = true) : fewer.isCompatible = true := by
  rw [isCompatible_iff] at h ⊢
  exact fun marker other hmarker hother ↦
    h marker other (hfewer marker hmarker) (hfewer other hother)

namespace Bar

variable {bar bar' : Bar} {marker : Marker}

/-- A bar is known by its parts. -/
theorem eq_of_parts (hid : bar.id = bar'.id) (hticks : bar.ticks = bar'.ticks)
    (hmarkers : bar.markers = bar'.markers) (hvariation : bar.variation = bar'.variation) :
    bar = bar' := by
  cases bar
  cases bar'
  rw [Bar.mk.injEq]
  exact ⟨hid, hticks, hmarkers, hvariation⟩

/-- The bar without a repeat end. -/
def withoutEnd (bar : Bar) : Bar :=
  { bar with
    markers := bar.markers.withoutEnd
    compatible := MarkerSet.isCompatible_of_has_imp
      (fun marker hmarker ↦ by simp_all [MarkerSet.has_withoutEnd]) bar.compatible
    not_barred := fun numbered ↦ by
      have hbarred := bar.not_barred numbered
      simp only [MarkerSet.barredFromVariations, List.filter_eq_nil_iff, MarkerSet.mem_toList,
        MarkerSet.has_withoutEnd, Bool.and_eq_true] at hbarred ⊢
      exact fun marker hmarker ↦ hbarred marker hmarker.2 }

theorem SameBut.refl (marker : Marker) (bar : Bar) : bar.SameBut marker bar :=
  ⟨rfl, rfl, rfl, fun _ _ ↦ rfl⟩

/-- Bars that differ in a repeat end are the same without it. -/
theorem SameBut.withoutEnd_eq (h : bar.SameBut .repeatEnd bar') :
    bar.withoutEnd = bar'.withoutEnd := by
  refine eq_of_parts h.id.symm h.ticks.symm (MarkerSet.ext fun other ↦ ?_) h.variation.symm
  show bar.markers.withoutEnd.has other = bar'.markers.withoutEnd.has other
  rw [MarkerSet.has_withoutEnd, MarkerSet.has_withoutEnd]
  by_cases hother : other = .repeatEnd
  · simp [hother]
  · have hsame : bar'.markers.has other = bar.markers.has other := h.has other hother
    rw [hsame]

theorem SameButVariationEnd.id_eq (h : bar.SameButVariationEnd bar') : bar'.id = bar.id := by
  rcases h with rfl | ⟨-, hsame⟩
  · rfl
  · exact hsame.id

theorem SameButVariationEnd.ticks_eq (h : bar.SameButVariationEnd bar') :
    bar'.ticks = bar.ticks := by
  rcases h with rfl | ⟨-, hsame⟩
  · rfl
  · exact hsame.ticks

end Bar

namespace Recasting

/-- Every bar without regard to a repeat end in a variation. -/
def withoutVariationEnds : Recasting where
  bar := fun bar ↦ if bar.variation = none then bar else bar.withoutEnd
  rename := id
  id_bar := fun bar ↦ by split_ifs <;> rfl
  variation_bar := fun bar ↦ by split_ifs <;> rfl
  has_bar := fun bar marker hmarker ↦ by
    split_ifs
    · rfl
    · have hend : marker ≠ .repeatEnd := fun h ↦ by simp [h, Marker.isRepeatMark] at hmarker
      show bar.markers.withoutEnd.has marker = bar.markers.has marker
      simp [MarkerSet.has_withoutEnd, hend]

theorem keepsRepeats_withoutVariationEnds : withoutVariationEnds.KeepsRepeats where
  starts := fun bar unnumbered ↦ by simp only [withoutVariationEnds, if_pos unnumbered]
  ends := fun bar unnumbered ↦ by simp only [withoutVariationEnds, if_pos unnumbered]

end Recasting

/-- Bars that differ in a repeat end in a variation become one without it. -/
theorem Bar.SameButVariationEnd.withoutVariationEnds_eq {bar bar' : Bar}
    (h : bar.SameButVariationEnd bar') :
    Recasting.withoutVariationEnds.bar bar = Recasting.withoutVariationEnds.bar bar' := by
  rcases h with rfl | ⟨numbered, hsame⟩
  · rfl
  · have numbered' : bar'.variation ≠ none := by rwa [hsame.variation]
    simp only [Recasting.withoutVariationEnds, if_neg numbered, if_neg numbered',
      hsame.withoutEnd_eq]

/-- Entries that are alike are the same where the bars keep their ids and lengths. -/
theorem SoundsAlike.eq {bars bars' : List Bar} {entry entry' : PlayedBar}
    {related : Bar → Bar → Prop} (h : SoundsAlike bars bars' entry entry')
    (hbars : List.Forall₂ related bars bars')
    (hrelated : ∀ bar bar', related bar bar' → bar'.id = bar.id ∧ bar'.ticks = bar.ticks) :
    entry = entry' := by
  obtain ⟨p, pass, bar, bar', hbar, rfl, rfl⟩ := h.exists_related hbars
  obtain ⟨hid, hticks⟩ := hrelated bar bar' hbar
  rw [hid, hticks]

/-- With or without repeat ends in its variations, a score is performed in one order, or refused alike.
-/
theorem perform_sameButVariationEnd {bars bars' : List Bar}
    (hbars : List.Forall₂ Bar.SameButVariationEnd bars bars') (rhythm : Option Rhythm)
    (auftakt : Bool) : Agree Eq (perform bars rhythm auftakt) (perform bars' rhythm auftakt) := by
  have hkeeps := Recasting.keepsRepeats_withoutVariationEnds
  have hseparates := Recasting.withoutVariationEnds.separates_of_rename_eq_id rfl
  have hsame := map_eq_map_of_forall₂ hbars fun _ _ hbar ↦ hbar.withoutVariationEnds_eq
  have hticks : bars.map Bar.ticks = bars'.map Bar.ticks :=
    map_eq_map_of_forall₂ hbars fun _ _ hbar ↦ hbar.ticks_eq.symm
  refine (perform_agrees hkeeps hkeeps hsame (hseparates _) (hseparates _)
    fun piece piece' hpiece hpiece' hmapped ↦ ?_).mono fun entry entry' halike ↦ ?_
  · exact Structure.samePickup_of_map_ticks_eq hpiece hpiece' hmapped hticks
  · exact halike.eq hbars fun _ _ hbar ↦ ⟨hbar.id_eq, hbar.ticks_eq⟩

/-! ### Repeat starts that are understood -/

namespace BarRun

variable {run : BarRun} {f : Bar → Bar}

/-- An open run is one also with a repeat start on its first bar. -/
theorem IsOpen.map (h : run.IsOpen) (hsame : ∀ bar ∈ run.toList, bar.SameBut .repeatStart (f bar))
    (hfixed : ∀ bar ∈ run.tail, f bar = bar) : BarRun.IsOpen (run.map f) where
  unnumbered := by
    rw [NonemptyList.toList_map, List.forall_mem_map]
    exact fun bar hbar ↦ (hsame bar hbar).variation.trans (h.unnumbered bar hbar)
  unended := by
    rw [NonemptyList.toList_map, List.forall_mem_map]
    exact fun bar hbar ↦ ((hsame bar hbar).has .repeatEnd (by decide)).trans (h.unended bar hbar)
  unstarted := by
    rw [NonemptyList.map, List.forall_mem_map]
    exact fun bar hbar ↦ (congrArg (Bar.has · .repeatStart) (hfixed bar hbar)).trans
      (h.unstarted bar hbar)

/-- A repeat is one also with a repeat start on its first bar. -/
theorem IsRepeat.map (h : run.IsRepeat)
    (hsame : ∀ bar ∈ run.toList, bar.SameBut .repeatStart (f bar))
    (hfixed : ∀ bar ∈ run.tail, f bar = bar) : BarRun.IsRepeat (run.map f) where
  unnumbered := by
    rw [NonemptyList.toList_map, List.forall_mem_map]
    exact fun bar hbar ↦ (hsame bar hbar).variation.trans (h.unnumbered bar hbar)
  ended := by
    rw [NonemptyList.last_map]
    exact ((hsame _ run.last_mem).has .repeatEnd (by decide)).trans h.ended
  unended := by
    rw [NonemptyList.init_map, List.forall_mem_map]
    exact fun bar hbar ↦ ((hsame bar (List.mem_of_mem_dropLast hbar)).has .repeatEnd
      (by decide)).trans (h.unended bar hbar)
  unstarted := by
    rw [NonemptyList.map, List.forall_mem_map]
    exact fun bar hbar ↦ (congrArg (Bar.has · .repeatStart) (hfixed bar hbar)).trans
      (h.unstarted bar hbar)

end BarRun

namespace Region

variable {region : Region} {f : Bar → Bar}

/-- A canonical region is one also with a repeat start on its first bar, if it is not straight. -/
theorem IsCanonical.mapBars (h : region.IsCanonical) (hnodup : region.bars.Nodup)
    (hsame : ∀ bar ∈ region.bars, bar.SameBut .repeatStart (f bar))
    (hfixed : ∀ bar ∈ region.bars, f bar = bar ∨ region.IsRepeating ∧ region.firstBar = bar) :
    (region.mapBars f).IsCanonical := by
  have htail : ∀ run : BarRun, run.toList <+: region.bars → region.firstBar = run.head →
      ∀ bar ∈ run.tail, f bar = bar := by
    rintro run ⟨rest, hrest⟩ hfirst bar hbar
    rw [← hrest] at hnodup hfixed
    refine (hfixed bar (by simp [NonemptyList.toList, hbar])).resolve_right fun hrepeating ↦ ?_
    rw [NonemptyList.toList, List.cons_append, List.nodup_cons, ← hfirst, hrepeating.2] at hnodup
    exact hnodup.1 (List.mem_append_left _ hbar)
  cases region with
  | plain passage =>
    cases passage with
    | straight run =>
      intro bar hbar
      obtain ⟨old, hold, rfl⟩ := List.mem_map.mp (NonemptyList.toList_map f run ▸ hbar)
      rw [(hfixed old hold).resolve_right fun hrepeating ↦ hrepeating.1]
      exact h old hold
    | repeated run => exact BarRun.IsRepeat.map h hsame (htail run (List.prefix_refl _) rfl)
  | varied common variations =>
    obtain ⟨hshared, hnumbered⟩ := h
    have hcommon : common.run.toList <+: (Region.varied common variations).bars :=
      List.prefix_append _ _
    have hcommonSame := fun bar hbar ↦ hsame bar (hcommon.subset hbar)
    refine ⟨?_, fun index variation hat ↦ ?_⟩
    · cases common with
      | straight run => exact BarRun.IsOpen.map hshared hcommonSame (htail run hcommon rfl)
      | repeated run => exact BarRun.IsRepeat.map hshared hcommonSame (htail run hcommon rfl)
    · rw [NonemptyList.toList_map, List.getElem?_map, Option.map_eq_some_iff] at hat
      obtain ⟨old, hold, rfl⟩ := hat
      intro bar hbar
      obtain ⟨oldBar, holdBar, rfl⟩ := List.mem_map.mp (NonemptyList.toList_map f old ▸ hbar)
      have hmem : oldBar ∈ (Region.varied common variations).bars :=
        List.mem_append_right _ (List.mem_flatMap.mpr ⟨old, List.mem_of_getElem? hold, holdBar⟩)
      exact (hsame oldBar hmem).variation.trans (hnumbered index old hold oldBar holdBar)

/-- A region may stand before another also when repeat starts are added. -/
theorem Precedes.mapBars {first second : Region} (h : first.Precedes second)
    (hstart : second.firstBar.has .repeatStart = true →
      (f second.firstBar).has .repeatStart = true) :
    (first.mapBars f).Precedes (second.mapBars f) := by
  rintro ⟨run, hrun⟩
  rw [firstBar_mapBars]
  refine hstart (h ?_)
  cases first with
  | plain passage =>
    cases passage with
    | straight old => exact ⟨old, rfl⟩
    | repeated old => cases hrun
  | varied common variations => cases hrun

end Region

namespace Structure

variable {piece : Structure} {bar bar' : Bar} {f : Bar → Bar}

theorem MarksStart.sameBut (h : piece.MarksStart bar bar') : bar.SameBut .repeatStart bar' := by
  rcases h with rfl | ⟨-, hsame, -⟩
  · exact .refl _ _
  · exact hsame

theorem MarksStart.keepsStart (h : piece.MarksStart bar bar') (hstart : bar.has .repeatStart = true) :
    bar'.has .repeatStart = true := by
  rcases h with rfl | ⟨-, -, hstarts⟩
  · exact hstart
  · exact hstarts

/-- No bar stands in two regions, where no two bars share an id. -/
theorem region_unique (distinct : piece.ids.Nodup) {region other : Region}
    (hregion : region ∈ piece.regions.toList) (hother : other ∈ piece.regions.toList)
    (hbar : bar ∈ region.bars) (hbarOther : bar ∈ other.bars) : region = other := by
  have hapart := (List.nodup_flatMap.mp (List.Nodup.of_map Bar.id distinct)).2
  have hsymm : Std.Symm (Function.onFun List.Disjoint Region.bars) :=
    ⟨fun _ _ h bar hfirst hsecond ↦ h hsecond hfirst⟩
  by_contra hne
  exact hapart.forall hregion hother hne hbar hbarOther

/-- Of the bars of a region only the first may get a repeat start, and only if the region is not
straight. -/
theorem MarksStart.eq_or_isRepeating (h : piece.MarksStart bar bar') (distinct : piece.ids.Nodup)
    {region : Region} (hregion : region ∈ piece.regions.toList) (hbar : bar ∈ region.bars) :
    bar' = bar ∨ region.IsRepeating ∧ region.firstBar = bar := by
  refine h.imp_right fun hmarked ↦ ?_
  obtain ⟨⟨other, hother, hrepeating, hfirst⟩, -⟩ := hmarked
  have hin : bar ∈ other.bars := hfirst ▸ List.mem_of_head? other.head?_bars
  rw [region_unique distinct hregion hother hbar hin]
  exact ⟨hrepeating, hfirst⟩

/-- Each bar with the repeat start that it may have got. -/
def markingStarts (hmarks : ∀ bar, piece.MarksStart bar (f bar)) : Recasting where
  bar := f
  rename := id
  id_bar := fun bar ↦ (hmarks bar).sameBut.id
  variation_bar := fun bar ↦ (hmarks bar).sameBut.variation
  has_bar := fun bar marker hmarker ↦ (hmarks bar).sameBut.has marker fun h ↦ by
    simp [h, Marker.isRepeatMark] at hmarker

end Structure

/-- Other bars with the same marks of navigation give the same kind. -/
theorem Kind.ofBars_map_bar (recasting : Recasting) (bars : List Bar) :
    Kind.ofBars (bars.map recasting.bar) = Kind.ofBars bars := by
  have hjump : Bar.hasJump ∘ recasting.bar = Bar.hasJump := funext recasting.hasJump_bar
  unfold Kind.ofBars
  rw [List.find?_map, hjump]
  cases bars.find? Bar.hasJump with
  | none => rfl
  | some bar => simp only [Option.map_some, recasting.has_bar bar .dalSegno rfl]

namespace Structure

variable {piece : Structure} {bars bars' : List Bar} {f : Bar → Bar}

/-- With the repeat starts written down that were understood, a score has the same regions. -/
theorem ofBars_map_of_marksStarts (hpiece : ofBars bars = .ok piece)
    (hmarks : ∀ bar, piece.MarksStart bar (f bar)) : ofBars (bars.map f) = .ok (piece.mapBars f) := by
  have distinct := (bars_of_ofBars hpiece).2
  obtain ⟨hnodup, regions, ⟨heach, hjoined⟩, hbars, rfl⟩ :=
    ofBars_eq_ok_iff_exists_isCanonical.mp hpiece
  have hids : (bars.map f).map Bar.id = bars.map Bar.id := by
    rw [List.map_map]
    exact List.map_congr_left fun bar _ ↦ (hmarks bar).sameBut.id
  have hkind : Kind.ofBars (bars.map f) = Kind.ofBars bars :=
    Kind.ofBars_map_bar (markingStarts hmarks) bars
  refine ofBars_eq_ok_iff_exists_isCanonical.mpr
    ⟨hids ▸ hnodup, regions.map (Region.mapBars f), ⟨?_, ?_⟩, ?_, ?_⟩
  · rw [NonemptyList.toList_map, List.forall_mem_map]
    intro region hregion
    have hregionNodup := (List.nodup_flatMap.mp (List.Nodup.of_map Bar.id (hbars ▸ hnodup))).1
      region hregion
    refine (heach region hregion).mapBars hregionNodup (fun bar _ ↦ (hmarks bar).sameBut)
      fun bar hbar ↦ (hmarks bar).eq_or_isRepeating distinct ?_ hbar
    rwa [regions_ofRegions]
  · rw [NonemptyList.toList_map, List.isChain_map]
    exact hjoined.imp fun _ _ hprecedes ↦ hprecedes.mapBars (hmarks _).keepsStart
  · simp only [NonemptyList.toList_map, List.flatMap_map, Region.bars_mapBars, ← hbars,
      List.map_flatMap]
  · rw [hkind, mapBars_ofRegions]

/-- Bars of their own, changed one by one, are changed by a map. -/
theorem exists_map_of_forall₂ {related : Bar → Bar → Prop} (hrefl : ∀ bar, related bar bar)
    (hnodup : bars.Nodup) (h : List.Forall₂ related bars bars') :
    ∃ f : Bar → Bar, (∀ bar, related bar (f bar)) ∧ bars' = bars.map f := by
  induction h with
  | nil => exact ⟨id, hrefl, rfl⟩
  | @cons bar bar' rest rest' hbar _ ih =>
    obtain ⟨hnew, hrest⟩ := List.nodup_cons.mp hnodup
    obtain ⟨f, hf, rfl⟩ := ih hrest
    refine ⟨Function.update f bar bar', fun other ↦ ?_, ?_⟩
    · by_cases hother : other = bar
      · rwa [hother, Function.update_self]
      · rw [Function.update_of_ne hother]
        exact hf other
    · rw [List.map_cons, Function.update_self]
      refine congrArg (bar' :: ·) (List.map_congr_left fun other hother ↦ ?_)
      have hne : other ≠ bar := fun h ↦ hnew (by rwa [← h])
      rw [Function.update_of_ne hne]

/-- With the repeat starts written down that were understood, a score is accepted again, and is
performed in one order, or refused alike. -/
theorem perform_marksStart (hpiece : ofBars bars = .ok piece)
    (hbars : List.Forall₂ piece.MarksStart bars bars') :
    (∃ piece', ofBars bars' = .ok piece') ∧ ∀ (rhythm : Option Rhythm) (auftakt : Bool),
      Agree Eq (perform bars rhythm auftakt) (perform bars' rhythm auftakt) := by
  obtain ⟨rfl, distinct⟩ := bars_of_ofBars hpiece
  obtain ⟨f, hmarks, rfl⟩ := exists_map_of_forall₂ (fun _ ↦ .inl rfl)
    (List.Nodup.of_map Bar.id distinct) hbars
  have hpiece' := ofBars_map_of_marksStarts hpiece hmarks
  have hsame : piece.mapBars (markingStarts hmarks).bar =
      (piece.mapBars f).mapBars Recasting.refl.bar := (mapBars_id _).symm
  have hticks : piece.bars.map Bar.ticks = (piece.bars.map f).map Bar.ticks :=
    map_eq_map_of_forall₂ hbars fun _ _ hbar ↦ hbar.sameBut.ticks.symm
  refine ⟨⟨_, hpiece'⟩, fun rhythm auftakt ↦ ?_⟩
  have hagree := perform_agrees_of_mapBars_eq hpiece hpiece' hsame
    ((markingStarts hmarks).separates_of_rename_eq_id rfl _)
    (Recasting.refl.separates_of_rename_eq_id rfl _)
    (@samePickup_of_map_ticks_eq _ _ rhythm auftakt _ _ _ _ hpiece hpiece' hsame hticks)
  exact hagree.mono fun entry entry' halike ↦
    halike.eq hbars fun _ _ hbar ↦ ⟨hbar.sameBut.id, hbar.sameBut.ticks⟩

end Structure

/-! ### Marks without effect -/

/-- Repeat marks that are only notation. Repeat ends may be added or left out on the bars of
variations, and the score is performed in one order or refused alike. And to a score that can be
grouped, a repeat start may be added on the first bar of any repeat and of any passage with variations:
the score can be grouped again, and is performed in one order or refused alike. -/
theorem perform_eq_of_notational_marks :
    (∀ (bars bars' : List Bar) (rhythm : Option Rhythm) (auftakt : Bool),
      List.Forall₂ Bar.SameButVariationEnd bars bars' →
      Agree Eq (perform bars rhythm auftakt) (perform bars' rhythm auftakt)) ∧
    ∀ (bars bars' : List Bar) (piece : Structure), Structure.ofBars bars = .ok piece →
      List.Forall₂ piece.MarksStart bars bars' →
      (∃ piece', Structure.ofBars bars' = .ok piece') ∧
        ∀ (rhythm : Option Rhythm) (auftakt : Bool),
          Agree Eq (perform bars rhythm auftakt) (perform bars' rhythm auftakt) :=
  ⟨fun _ _ rhythm auftakt hbars ↦ perform_sameButVariationEnd hbars rhythm auftakt,
    fun _ _ _ hpiece hbars ↦ Structure.perform_marksStart hpiece hbars⟩

/-- A repeat of two bars, and a bar with two endings, the first with a repeat end. -/
def scoreWithEndings : List Bar :=
  [Structure.unmarkedBar "A", Structure.endingBar "B", Structure.unmarkedBar "C",
    Structure.firstEndingBar "D",
    Structure.variationBar "E" 2 Structure.some_two_ne_some_zero]

/-- The same bars without a repeat end in a variation. -/
def scoreWithoutVariationEnd : List Bar :=
  [Structure.unmarkedBar "A", Structure.endingBar "B", Structure.unmarkedBar "C",
    Structure.variationBar "D" 1 Structure.some_one_ne_some_zero,
    Structure.variationBar "E" 2 Structure.some_two_ne_some_zero]

/-- The same bars with all repeat starts. -/
def scoreWithStarts : List Bar :=
  [Structure.markedBar "A" .repeatStart, Structure.endingBar "B",
    Structure.markedBar "C" .repeatStart, Structure.firstEndingBar "D",
    Structure.variationBar "E" 2 Structure.some_two_ne_some_zero]

/-- The repeat and the passage with endings. -/
def pieceOfEndings : Structure :=
  Structure.ofRegions
    ⟨.plain (.repeated ⟨Structure.unmarkedBar "A", [Structure.endingBar "B"]⟩),
      [.varied (.straight ⟨Structure.unmarkedBar "C", []⟩)
        ⟨⟨Structure.firstEndingBar "D", []⟩,
          [⟨Structure.variationBar "E" 2 Structure.some_two_ne_some_zero, []⟩]⟩]⟩ .bare

theorem sameBut_markedBar (id : String) (marker : Marker) :
    (Structure.unmarkedBar id).SameBut marker (Structure.markedBar id marker) :=
  ⟨rfl, rfl, rfl, fun other hother ↦ by
    simp [Bar.has, Structure.markedBar, Structure.unmarkedBar, hother]⟩

/-- The score with endings is performed alike without the repeat end in a variation and with all
repeat starts. -/
theorem perform_scoreWithEndings :
    Agree Eq (perform scoreWithEndings none false) (perform scoreWithoutVariationEnd none false) ∧
      Structure.ofBars scoreWithEndings = .ok pieceOfEndings ∧
      (∃ piece', Structure.ofBars scoreWithStarts = .ok piece') ∧
      Agree Eq (perform scoreWithEndings none false) (perform scoreWithStarts none false) := by
  have hend : (Structure.firstEndingBar "D").SameBut .repeatEnd
      (Structure.variationBar "D" 1 Structure.some_one_ne_some_zero) :=
    ⟨rfl, rfl, rfl, fun other hother ↦ by cases other <;> first | rfl | exact absurd rfl hother⟩
  have hends : List.Forall₂ Bar.SameButVariationEnd scoreWithEndings scoreWithoutVariationEnd :=
    .cons (.inl rfl) (.cons (.inl rfl) (.cons (.inl rfl)
      (.cons (.inr ⟨by decide, hend⟩) (.cons (.inl rfl) .nil))))
  have hrepeat : pieceOfEndings.MarksStart (Structure.unmarkedBar "A")
      (Structure.markedBar "A" .repeatStart) :=
    .inr ⟨⟨_, List.mem_cons_self, trivial, rfl⟩, sameBut_markedBar "A" .repeatStart, rfl⟩
  have hcommon : pieceOfEndings.MarksStart (Structure.unmarkedBar "C")
      (Structure.markedBar "C" .repeatStart) :=
    .inr ⟨⟨_, List.mem_cons_of_mem _ List.mem_cons_self, trivial, rfl⟩,
      sameBut_markedBar "C" .repeatStart, rfl⟩
  have hstarts : List.Forall₂ pieceOfEndings.MarksStart scoreWithEndings scoreWithStarts :=
    .cons hrepeat (.cons (.inl rfl) (.cons hcommon (.cons (.inl rfl) (.cons (.inl rfl) .nil))))
  have hpiece : Structure.ofBars scoreWithEndings = .ok pieceOfEndings := rfl
  obtain ⟨haccepted, hagree⟩ := perform_eq_of_notational_marks.2 _ _ _ hpiece hstarts
  exact ⟨perform_eq_of_notational_marks.1 _ _ none false hends, hpiece, haccepted,
    hagree none false⟩

/-- Repeats sound twice with and without their starts. -/
example : (perform scoreWithStarts none false).map (fun order ↦ order.pairs) =
    .ok [("A", 1), ("B", 1), ("A", 2), ("B", 2), ("C", 1), ("D", 1), ("C", 2), ("E", 1)] := by
  rfl

end ScoreRepeats
