import ScoreRepeats.Proofs.RecastPieces

/-!
# What a performance does not depend on

Ids are names and nothing more: under other ids that differ where the old ones did, a score is
performed in the same order, or refused for breaking the same rule at the same positions. Lengths are
carried along, and count only where a Da Capo comes after a pickup: there the lengths of the first and
the last bar are compared with a full bar, and nowhere else is a length, the rhythm or the auftakt
asked for.

Both are cases of `perform_agrees`. Renaming is a recasting by itself (`Recasting.ofRename`), and
scores that differ in lengths become one when all lengths are forgotten (`Recasting.untimed`).
-/

set_option autoImplicit false
set_option relaxedAutoImplicit false

namespace ScoreRepeats

/-- The bar under another id. -/
def Bar.rename (rename : String → String) (bar : Bar) : Bar := { bar with id := rename bar.id }

/-- The bar with another length. -/
def Bar.lasting (bar : Bar) (ticks : Nat) (positive : 0 < ticks) : Bar :=
  { bar with ticks, ticks_pos := positive }

/-- The entry under another id. -/
def PlayedBar.rename (rename : String → String) (entry : PlayedBar) : PlayedBar :=
  { entry with id := rename entry.id }

/-- Two bars that differ in their lengths at most. -/
structure Bar.SameButTicks (bar bar' : Bar) : Prop where
  id : bar.id = bar'.id
  markers : bar.markers = bar'.markers
  variation : bar.variation = bar'.variation

/-- Two entries that differ in their lengths at most. -/
structure PlayedBar.SameButTicks (entry entry' : PlayedBar) : Prop where
  id : entry.id = entry'.id
  pass : entry.pass = entry'.pass
  position : entry.position = entry'.position

/-! ### Other ids -/

namespace Recasting

/-- Every bar as it is, under another id. -/
def ofRename (rename : String → String) : Recasting where
  bar := Bar.rename rename
  rename := rename
  id_bar := fun _ ↦ rfl
  variation_bar := fun _ ↦ rfl
  has_bar := fun _ _ _ ↦ rfl

theorem keepsRepeats_ofRename (rename : String → String) : (ofRename rename).KeepsRepeats where
  starts := fun _ _ ↦ rfl
  ends := fun _ _ ↦ rfl

/-- Every bar without regard to its length. -/
def untimed : Recasting where
  bar := fun bar ↦ bar.lasting 1 Nat.one_pos
  rename := id
  id_bar := fun _ ↦ rfl
  variation_bar := fun _ ↦ rfl
  has_bar := fun _ _ _ ↦ rfl

theorem keepsRepeats_untimed : untimed.KeepsRepeats where
  starts := fun _ _ ↦ rfl
  ends := fun _ _ ↦ rfl

end Recasting

/-- A score without a Da Capo is not one of that kind. -/
theorem Structure.kind_ne_daCapo {bars : List Bar} {piece : Structure} (hpiece : ofBars bars = .ok piece)
    (hnone : ∀ bar ∈ bars, bar.has .daCapo = false) : piece.kind ≠ .daCapo := by
  obtain ⟨-, regions, -, -, rfl⟩ := ofBars_eq_ok_iff_exists_isCanonical.mp hpiece
  show Kind.ofBars bars ≠ .daCapo
  unfold Kind.ofBars
  cases hfind : bars.find? Bar.hasJump with
  | none => exact nofun
  | some bar =>
    have hjump := (Bar.hasJump_iff bar).mp (List.find?_some hfind)
    rw [hnone bar (List.mem_of_find?_eq_some hfind)] at hjump
    have hsegno : bar.has .dalSegno = true := hjump.resolve_left (by simp)
    simp [hsegno]

/-- Under other ids a score is performed in the same order or refused alike. -/
theorem perform_map_rename {rename : String → String} {bars : List Bar}
    (hinjective : Set.InjOn rename {id | id ∈ bars.map Bar.id}) (rhythm : Option Rhythm)
    (auftakt : Bool) :
    Agree (fun entry entry' ↦ entry' = entry.rename rename) (perform bars rhythm auftakt)
      (perform (bars.map (Bar.rename rename)) rhythm auftakt) := by
  have hsame : bars.map (Recasting.ofRename rename).bar =
      (bars.map (Bar.rename rename)).map Recasting.refl.bar := (List.map_id _).symm
  refine (perform_agrees (Recasting.keepsRepeats_ofRename rename) Recasting.keepsRepeats_refl hsame
    hinjective (Recasting.refl.separates_of_rename_eq_id rfl _) ?_).mono ?_
  · intro piece piece' hpiece hpiece' hmapped
    refine Structure.samePickup_of_map_ticks_eq hpiece hpiece' hmapped ?_
    rw [List.map_map]
    rfl
  · rintro _ _ ⟨p, pass, bar, bar', hbar, hbar', rfl, rfl⟩
    rw [List.getElem?_map, hbar, Option.map_some, Option.some.injEq] at hbar'
    rw [← hbar']
    rfl

/-! ### Other lengths -/

/-- Bars that differ in lengths become one when lengths are forgotten. -/
theorem Bar.SameButTicks.untimed_eq {bar bar' : Bar} (h : bar.SameButTicks bar') :
    Recasting.untimed.bar bar = Recasting.untimed.bar bar' := by
  obtain ⟨id, ticks, markers, variation⟩ := bar
  obtain ⟨rfl, rfl, rfl⟩ := h
  rfl

/-- Scores that differ in lengths are performed in the same order or refused alike, if their pickups
are to the same effect. -/
theorem perform_sameButTicks {bars bars' : List Bar} {rhythm rhythm' : Option Rhythm}
    {auftakt auftakt' : Bool} (hbars : List.Forall₂ Bar.SameButTicks bars bars')
    (hpickup : ∀ piece piece', Structure.ofBars bars = .ok piece →
      Structure.ofBars bars' = .ok piece' →
      piece.mapBars Recasting.untimed.bar = piece'.mapBars Recasting.untimed.bar →
      Structure.SamePickup piece piece' rhythm rhythm' auftakt auftakt') :
    Agree PlayedBar.SameButTicks (perform bars rhythm auftakt) (perform bars' rhythm' auftakt') := by
  have hkeeps := Recasting.keepsRepeats_untimed
  have hseparates := Recasting.untimed.separates_of_rename_eq_id rfl
  have hsame := map_eq_map_of_forall₂ hbars fun _ _ hbar ↦ hbar.untimed_eq
  refine (perform_agrees hkeeps hkeeps hsame (hseparates _) (hseparates _) hpickup).mono
    fun entry entry' halike ↦ ?_
  obtain ⟨p, pass, bar, bar', hbar, rfl, rfl⟩ := halike.exists_related hbars
  exact ⟨hbar.id, rfl, rfl⟩

/-! ### Noninterference -/

/-- What a performance does not depend on. Other ids, different where the old ones are, lead to the
same order with these ids, or to a violation of the same rule at the same positions. Without an
auftakt or without a Da Capo, other lengths and another rhythm lead to the same ids, passes and
positions, or to such a violation; without a Da Capo the auftakt has no part in this either. And with
both, the lengths of all bars but the first and the last have none. -/
theorem perform_noninterference :
    (∀ (bars : List Bar) (rhythm : Option Rhythm) (auftakt : Bool) (rename : String → String),
      Set.InjOn rename {id | id ∈ bars.map Bar.id} →
      Agree (fun entry entry' ↦ entry' = entry.rename rename) (perform bars rhythm auftakt)
        (perform (bars.map (Bar.rename rename)) rhythm auftakt)) ∧
    (∀ (bars bars' : List Bar) (rhythm rhythm' : Option Rhythm) (auftakt auftakt' : Bool),
      List.Forall₂ Bar.SameButTicks bars bars' →
      (auftakt = false ∧ auftakt' = false ∨ ∀ bar ∈ bars, bar.has .daCapo = false) →
      Agree PlayedBar.SameButTicks (perform bars rhythm auftakt) (perform bars' rhythm' auftakt')) ∧
    ∀ (bars bars' : List Bar) (rhythm : Option Rhythm) (auftakt : Bool),
      List.Forall₂ Bar.SameButTicks bars bars' →
      bars.head?.map Bar.ticks = bars'.head?.map Bar.ticks →
      bars.getLast?.map Bar.ticks = bars'.getLast?.map Bar.ticks →
      Agree PlayedBar.SameButTicks (perform bars rhythm auftakt) (perform bars' rhythm auftakt) := by
  refine ⟨fun bars rhythm auftakt rename hinjective ↦ perform_map_rename hinjective rhythm auftakt,
    fun bars bars' rhythm rhythm' auftakt auftakt' hbars hfree ↦ ?_,
    fun bars bars' rhythm auftakt hbars hfirst hlast ↦ ?_⟩
  · refine perform_sameButTicks hbars fun piece piece' hpiece hpiece' hmapped ↦ ?_
    rcases hfree with ⟨rfl, rfl⟩ | hnone
    · exact Structure.samePickup_of_no_auftakt
    · have hkind := Structure.kind_ne_daCapo hpiece hnone
      refine Structure.samePickup_of_kind_ne_daCapo hkind ?_
      rwa [← Structure.kind_mapBars Recasting.untimed.bar, ← hmapped, Structure.kind_mapBars]
  · exact perform_sameButTicks hbars fun piece piece' hpiece hpiece' hmapped ↦
      Structure.samePickup_of_ends hpiece hpiece' hmapped hfirst hlast

/-- A pickup, a bar and a last bar that the pickup completes, with the Da Capo. -/
def scoreWithPickup (middle : Nat) (positive : 0 < middle) : List Bar :=
  [(Structure.unmarkedBar "P").lasting 240 (Nat.succ_pos 239),
    (Structure.unmarkedBar "A").lasting middle positive,
    (Structure.markedBar "B" .daCapo).lasting 720 (Nat.succ_pos 719)]

/-- In the score with a pickup, two ids may change places, and the length of the bar in the middle
does not matter. -/
theorem perform_scoreWithPickup :
    Agree (fun entry entry' ↦ entry' = entry.rename (Equiv.swap "A" "B"))
        (perform (scoreWithPickup 960 (by decide)) none true)
        (perform ((scoreWithPickup 960 (by decide)).map (Bar.rename (Equiv.swap "A" "B"))) none true) ∧
      Agree PlayedBar.SameButTicks (perform (scoreWithPickup 960 (by decide)) none false)
        (perform (scoreWithPickup 1 (by decide)) none false) ∧
      Agree PlayedBar.SameButTicks (perform (scoreWithPickup 960 (by decide)) none true)
        (perform (scoreWithPickup 1 (by decide)) none true) := by
  have hbars : List.Forall₂ Bar.SameButTicks (scoreWithPickup 960 (by decide))
      (scoreWithPickup 1 (by decide)) :=
    .cons ⟨rfl, rfl, rfl⟩ (.cons ⟨rfl, rfl, rfl⟩ (.cons ⟨rfl, rfl, rfl⟩ .nil))
  exact ⟨perform_noninterference.1 _ _ _ _ (Equiv.swap "A" "B").injective.injOn,
    perform_noninterference.2.1 _ _ _ _ _ _ hbars (.inl ⟨rfl, rfl⟩),
    perform_noninterference.2.2 _ _ _ _ hbars rfl rfl⟩

/-- With the auftakt the pickup sounds again before the bar in the middle, however long that is. -/
example : (perform (scoreWithPickup 1 (by decide)) none true).map (fun order ↦ order.pairs) =
    .ok [("P", 1), ("A", 1), ("B", 1), ("P", 2), ("A", 2), ("B", 2)] := by
  cbv

end ScoreRepeats
