import Mathlib.Data.List.Basic
import ScoreRepeats.Proofs.MarkerPlaces

/-!
# The layout of a piece

A piece is laid out bar by bar, and three lists grow on the way: the bars, their owners, and the
positions of the ids. What one bar adds is said first; what all bars of a part add, and then all
parts, follows by induction. So the bars of the layout are those of the regions in written order
(`Structure.layout_bars`), every bar is owned by the part that it stands in (`Structure.owners_eq`),
and an id leads to the first bar that has it, also where several bars share the id
(`Structure.position_eq_ok_iff`).
-/

set_option autoImplicit false
set_option relaxedAutoImplicit false

namespace ScoreRepeats

/-! ### One bar and one part more -/

namespace Layout

variable {layout : Layout} {part : Part}

/-- Every id leads to the first of the bars that have it. -/
def FindsFirst (layout : Layout) : Prop :=
  ∀ id, layout.positions.lookup id = layout.bars.findIdx? fun bar ↦ bar.id == id

theorem findsFirst_empty : empty.FindsFirst := fun _ ↦ rfl

/-- With one more bar, the ids still lead to the first bars that have them. -/
theorem FindsFirst.addBar (h : layout.FindsFirst) (bar : Bar) :
    (layout.addBar part bar).FindsFirst := by
  intro id
  have hknown := h bar.id
  simp only [Layout.addBar, List.findIdx?_append, List.findIdx?_singleton, ← h id]
  by_cases hsame : bar.id = id
  · subst hsame
    cases hlookup : layout.positions.lookup bar.id with
    | none => simp [List.lookup_append, hlookup]
    | some position => simp [hlookup]
  · have hother : (id == bar.id) = false := beq_eq_false_iff_ne.mpr (Ne.symm hsame)
    split
    · simp [hsame]
    · simp [List.lookup_append, List.lookup_cons, hother, hsame]

/-- The bars of one more part are laid out behind the others, and the part owns them. -/
theorem addPart_eq (layout : Layout) (part : Part) :
    (layout.addPart part).bars = layout.bars ++ part.region.bars ∧
      (layout.addPart part).owners = layout.owners ++ part.region.bars.map fun _ ↦ part := by
  unfold addPart
  induction part.region.bars generalizing layout with
  | nil => simp
  | cons bar rest ih =>
    rw [List.foldl_cons, (ih _).1, (ih _).2]
    simp [addBar]

/-- With one more part, the ids still lead to the first bars that have them. -/
theorem FindsFirst.addPart (h : layout.FindsFirst) (part : Part) :
    (layout.addPart part).FindsFirst := by
  unfold Layout.addPart
  induction part.region.bars generalizing layout with
  | nil => exact h
  | cons bar rest ih => exact ih (h.addBar bar)

/-- Several parts are laid out one after the other. -/
theorem foldl_addPart_eq (layout : Layout) (parts : List Part) :
    (parts.foldl addPart layout).bars = layout.bars ++ parts.flatMap (·.region.bars) ∧
      (parts.foldl addPart layout).owners =
        layout.owners ++ parts.flatMap fun part ↦ part.region.bars.map fun _ ↦ part := by
  induction parts generalizing layout with
  | nil => simp
  | cons part rest ih =>
    rw [List.foldl_cons, (ih _).1, (ih _).2, (addPart_eq layout part).1, (addPart_eq layout part).2]
    simp

/-- After several parts, the ids still lead to the first bars that have them. -/
theorem FindsFirst.foldl_addPart (h : layout.FindsFirst) (parts : List Part) :
    (parts.foldl Layout.addPart layout).FindsFirst := by
  induction parts generalizing layout with
  | nil => exact h
  | cons part rest ih => exact ih (h.addPart part)

end Layout

namespace Structure

variable {piece : Structure} {id : String} {p : Nat}

/-! ### A whole piece -/

/-- The bars of the layout are those of the regions in written order. -/
theorem layout_bars (piece : Structure) : piece.layout.bars = piece.bars := by
  rw [layout, (Layout.foldl_addPart_eq _ _).1, bars, regions, NonemptyList.toList_map,
    List.flatMap_map]
  rfl

/-- Every bar is owned by the part that it stands in. -/
theorem owners_eq (piece : Structure) :
    piece.owners = piece.parts.toList.flatMap fun part ↦ part.region.bars.map fun _ ↦ part :=
  (Layout.foldl_addPart_eq _ _).2

/-- An id is looked up among the bars of the piece. -/
theorem lookup_positions (piece : Structure) (id : String) :
    piece.layout.positions.lookup id = piece.bars.findIdx? fun bar ↦ bar.id == id := by
  rw [← layout_bars]
  exact Layout.findsFirst_empty.foldl_addPart _ id

/-- The position of an id is that of the first bar that has it. -/
theorem position_eq_ok_iff :
    piece.position id = .ok p ↔ piece.StandsFirstAt (fun bar ↦ bar.id == id) p := by
  have hfind : piece.position id = .ok p ↔
      piece.bars.findIdx? (fun bar ↦ bar.id == id) = some p := by
    rw [position, lookup_positions]
    cases piece.bars.findIdx? fun bar ↦ bar.id == id <;> simp
  rw [hfind, List.findIdx?_eq_some_iff_getElem]
  constructor
  · rintro ⟨hlt, htest, hbefore⟩
    refine ⟨⟨_, List.getElem?_eq_getElem hlt, htest⟩, fun q ⟨bar, hbar, hsame⟩ ↦ ?_⟩
    by_contra hle
    obtain ⟨hq, rfl⟩ := List.getElem?_eq_some_iff.mp hbar
    exact hbefore q (Nat.lt_of_not_le hle) hsame
  · rintro ⟨⟨bar, hbar, htest⟩, hfirst⟩
    obtain ⟨hlt, rfl⟩ := List.getElem?_eq_some_iff.mp hbar
    refine ⟨hlt, htest, fun q hq hsame ↦ ?_⟩
    have hle := hfirst q ⟨_, List.getElem?_eq_getElem (Nat.lt_trans hq hlt), hsame⟩
    exact absurd hle (Nat.not_le.mpr hq)

/-- An id has no position just if no bar has it. -/
theorem exists_position_eq_error_iff :
    (∃ error, piece.position id = .error error) ↔
      ∀ p, ¬ piece.StandsAt (fun bar ↦ bar.id == id) p := by
  constructor
  · rintro ⟨error, herror⟩ p hp
    obtain ⟨q, hq⟩ := hp.exists_first
    rw [position_eq_ok_iff.mpr hq] at herror
    cases herror
  · intro hnone
    cases hposition : piece.position id with
    | error error => exact ⟨error, rfl⟩
    | ok q => exact absurd (position_eq_ok_iff.mp hposition).1 (hnone q)

/-- The id of a bar leads to a position, and no bar before has the id. -/
theorem position_locate (h : id ∈ piece.ids) : piece.position id = .ok (piece.locate id) := by
  have hget : piece.ids[piece.locate id]? = some id := List.getElem?_idxOf h
  rw [ids, List.getElem?_map, Option.map_eq_some_iff] at hget
  obtain ⟨bar, hbar, hid⟩ := hget
  refine position_eq_ok_iff.mpr ⟨⟨bar, hbar, beq_iff_eq.mpr hid⟩, fun q ⟨other, hother, hsame⟩ ↦ ?_⟩
  have hq : piece.ids[q]? = some id := by
    rw [ids, List.getElem?_map, hother, Option.map_some, beq_iff_eq.mp hsame]
  have hmem : id ∈ piece.ids.take (q + 1) :=
    List.mem_of_getElem? (by rwa [List.getElem?_take_of_lt (Nat.lt_succ_self q)])
  exact Nat.le_of_lt_succ ((List.mem_take_iff_idxOf_lt h).mp hmem)

end Structure

end ScoreRepeats
