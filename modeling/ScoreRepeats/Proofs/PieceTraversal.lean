import Mathlib.Order.Monotone.Basic
import ScoreRepeats.Grouping
import ScoreRepeats.Proofs.PieceLayout
import ScoreRepeats.Proofs.PlainBars
import ScoreRepeats.Proofs.SkippedPlaces

/-!
# Ways through a piece

A piece can be read as a tree of regions, or as the row of bars that it is laid out in. A region
starts in the row behind the bars of the regions before it (`Structure.offset`). There all that is laid
out for it stands together (`Structure.isPrefix_drop_offset`): its bars (`Structure.barsBetween_offset`),
and itself as the owner of each of them (`Structure.partAt?_of_liesIn`).

The same region may stand at several places. Then it owns the bars at each of them, so that the owner
of a bar tells the region and not the place (`Structure.partAt?_eq_some_iff`), and a walk that looks for
the next region finds the one behind the first place. In a piece that was built from bars every region
has a label of its own, and the walk comes through all of them (`Structure.visits_of_nodup`).
-/

set_option autoImplicit false
set_option relaxedAutoImplicit false

namespace ScoreRepeats.Structure

variable {piece : Structure} {part : Part} {i j p : Nat}

/-! ### Places of parts -/

/-- The number of bars before the part at an index. -/
def offset (piece : Structure) (i : Nat) : Nat :=
  ((piece.regions.toList.take i).flatMap Region.bars).length

/-- A position is one of those that the part at an index takes up. -/
def LiesIn (piece : Structure) (p i : Nat) : Prop :=
  piece.offset i ≤ p ∧ p < piece.offset (i + 1)

theorem getElem?_regions (piece : Structure) (i : Nat) :
    piece.regions.toList[i]? = piece.parts.toList[i]?.map Part.region := by
  rw [regions, NonemptyList.toList_map, List.getElem?_map]

/-- Behind a part there are its bars more. -/
theorem offset_succ (hpart : piece.parts.toList[i]? = some part) :
    piece.offset (i + 1) = piece.offset i + part.region.bars.length := by
  rw [offset, List.take_add_one, getElem?_regions, hpart, List.flatMap_append, List.length_append,
    offset, Option.map_some, Option.toList_some, List.flatMap_singleton]

/-- The parts stand one behind the other. -/
theorem offset_mono : Monotone piece.offset := by
  refine monotone_nat_of_le_succ fun i ↦ ?_
  rw [offset, offset, List.take_add_one, List.flatMap_append, List.length_append]
  exact Nat.le_add_right _ _

/-- A position lies in one part only. -/
theorem LiesIn.eq (hi : piece.LiesIn p i) (hj : piece.LiesIn p j) : i = j := by
  rcases Nat.lt_trichotomy i j with hlt | heq | hlt
  · have hle : piece.offset (i + 1) ≤ piece.offset j := offset_mono hlt
    exact absurd (Nat.lt_of_lt_of_le hi.2 (hle.trans hj.1)) (Nat.lt_irrefl p)
  · exact heq
  · have hle : piece.offset (j + 1) ≤ piece.offset i := offset_mono hlt
    exact absurd (Nat.lt_of_lt_of_le hj.2 (hle.trans hi.1)) (Nat.lt_irrefl p)

/-- Where a position lies there is a part, and the position is that of one of its bars. -/
theorem LiesIn.exists_part (hin : piece.LiesIn p i) :
    ∃ part, piece.parts.toList[i]? = some part ∧ p - piece.offset i < part.region.bars.length := by
  cases hpart : piece.parts.toList[i]? with
  | none =>
    have hsame : piece.offset (i + 1) = piece.offset i := by
      rw [offset, List.take_add_one, getElem?_regions, hpart, Option.map_none, Option.toList_none,
        List.append_nil, offset]
    obtain ⟨hle, hlt⟩ := hin
    omega
  | some part =>
    obtain ⟨hle, hlt⟩ := hin
    rw [offset_succ hpart] at hlt
    exact ⟨part, rfl, by omega⟩

/-- Every position of a piece lies in a part. -/
theorem exists_liesIn (hp : p < piece.size) : ∃ i, piece.LiesIn p i := by
  obtain ⟨place, hplace, hle, hlt⟩ := exists_place_of_lt hp
  obtain ⟨i, hi⟩ := List.mem_iff_getElem?.mp hplace
  rw [getElem?_placed, getElem?_regions, Option.map_map, Option.map_eq_some_iff] at hi
  obtain ⟨part, hpart, rfl⟩ := hi
  refine ⟨i, hle, ?_⟩
  rw [offset_succ hpart]
  exact hlt

/-- What is written part by part, as long for each as its bars, stands for a part at its place. -/
theorem isPrefix_drop_offset {β : Type} (write : Part → List β)
    (hlength : ∀ part, (write part).length = part.region.bars.length)
    (hpart : piece.parts.toList[i]? = some part) :
    write part <+: (piece.parts.toList.flatMap write).drop (piece.offset i) := by
  have hoffset : piece.offset i =
      ((piece.parts.toList.take i).map fun part ↦ (write part).length).sum := by
    rw [offset, List.length_flatMap, regions, NonemptyList.toList_map, ← List.map_take, List.map_map]
    exact congrArg List.sum (List.map_congr_left fun part _ ↦ (hlength part).symm)
  have hplaced : (piece.offset i, part) ∈
      placedFrom (fun part ↦ (write part).length) 0 piece.parts.toList := by
    refine List.mem_of_getElem? (i := i) ?_
    rw [getElem?_placedFrom, hpart, Option.map_some, ← hoffset, Nat.zero_add]
  exact isPrefix_drop_of_mem_placedFrom (List.prefix_refl _) hplaced

/-! ### Bars of a part -/

/-- A range of positions has bars if it is one of the piece. -/
theorem barsBetween_eq_ok_iff {first past : Int} {between : List Bar} :
    piece.barsBetween first past = .ok between ↔
      (0 ≤ first ∧ first ≤ past ∧ past ≤ piece.size) ∧
        (piece.bars.take past.toNat).drop first.toNat = between := by
  rw [barsBetween]
  split <;> simp_all

/-- The bars of a part stand together from its place on. -/
theorem bars_isPrefix_drop_offset (hpart : piece.parts.toList[i]? = some part) :
    part.region.bars <+: piece.bars.drop (piece.offset i) := by
  have hprefix := isPrefix_drop_offset (fun part ↦ part.region.bars) (fun _ ↦ rfl) hpart
  rwa [bars, regions, NonemptyList.toList_map, List.flatMap_map]

/-- The bars between the place of a part and the next place are those of the part. -/
theorem barsBetween_offset (hpart : piece.parts.toList[i]? = some part) :
    piece.barsBetween (piece.offset i) (piece.offset (i + 1)) = .ok part.region.bars := by
  have hprefix := bars_isPrefix_drop_offset hpart
  have hsize : piece.offset (i + 1) ≤ piece.size := by
    have hle := hprefix.length_le
    have hne := List.length_pos_of_ne_nil part.region.bars_ne_nil
    rw [List.length_drop] at hle
    rw [offset_succ hpart, size]
    omega
  have hle : piece.offset i ≤ piece.offset (i + 1) := offset_mono (Nat.le_succ i)
  refine barsBetween_eq_ok_iff.mpr
    ⟨⟨Int.natCast_nonneg _, Int.ofNat_le.mpr hle, Int.ofNat_le.mpr hsize⟩, ?_⟩
  rw [Int.toNat_natCast, Int.toNat_natCast, List.drop_take, offset_succ hpart,
    Nat.add_sub_cancel_left, ← List.prefix_iff_eq_take.mp hprefix]

/-- At the place of a part stands its first bar. -/
theorem getElem?_offset (hpart : piece.parts.toList[i]? = some part) :
    piece.bars[piece.offset i]? = some part.region.firstBar := by
  have hne : 0 < part.region.bars.length := List.length_pos_of_ne_nil part.region.bars_ne_nil
  have hfirst : part.region.bars[0]? = some part.region.firstBar := by
    rw [← List.head?_eq_getElem?, Region.head?_bars]
  have hdrop := List.prefix_iff_getElem?.mp (bars_isPrefix_drop_offset hpart) 0 hne
  rw [List.getElem?_drop, Nat.add_zero, ← List.getElem?_eq_getElem hne, hfirst] at hdrop
  exact hdrop

/-! ### The owner of a bar -/

/-- A bar is owned by the part in which it lies. -/
theorem partAt?_of_liesIn (hin : piece.LiesIn p i) :
    piece.partAt? p = piece.parts.toList[i]? := by
  obtain ⟨part, hpart, hlt⟩ := hin.exists_part
  have hprefix := isPrefix_drop_offset (fun part ↦ part.region.bars.map fun _ ↦ part)
    (fun _ ↦ List.length_map _) hpart
  have hdrop := List.prefix_iff_getElem?.mp hprefix (p - piece.offset i) (by rwa [List.length_map])
  rw [List.getElem?_drop, Nat.add_sub_cancel' hin.1, List.getElem_map] at hdrop
  rw [partAt?, owners_eq, hdrop, hpart]

/-- As many owners are laid out as there are bars. -/
theorem length_owners (piece : Structure) : piece.owners.length = piece.size := by
  rw [owners_eq, size, bars, regions, NonemptyList.toList_map, List.flatMap_map]
  simp only [List.length_flatMap, List.length_map]

/-- A region owns the bars at all of its places, and no others. -/
theorem partAt?_eq_some_iff :
    piece.partAt? p = some part ↔ ∃ i, piece.LiesIn p i ∧ piece.parts.toList[i]? = some part := by
  constructor
  · intro howner
    have hp : p < piece.size := by
      rw [← length_owners]
      exact (List.getElem?_eq_some_iff.mp howner).1
    obtain ⟨i, hin⟩ := exists_liesIn hp
    exact ⟨i, hin, (partAt?_of_liesIn hin).symm.trans howner⟩
  · rintro ⟨i, hin, hpart⟩
    rw [partAt?_of_liesIn hin, hpart]

/-- Where no region stands twice, it owns the bars at its place. -/
theorem partAt?_eq_some_iff_liesIn (hnodup : piece.parts.toList.Nodup)
    (hpart : piece.parts.toList[i]? = some part) :
    piece.partAt? p = some part ↔ piece.LiesIn p i := by
  rw [partAt?_eq_some_iff]
  constructor
  · rintro ⟨j, hin, hother⟩
    have hi : i < piece.parts.toList.length := (List.getElem?_eq_some_iff.mp hpart).1
    rwa [(List.getElem?_inj hi hnodup).mp (hpart.trans hother.symm)]
  · exact fun hin ↦ ⟨i, hin, hpart⟩

/-! ### Bars and their positions -/

/-- Every bar is found where it stands just if no two bars share an id. -/
theorem forall_position_eq_ok_iff :
    (∀ p bar, piece.bars[p]? = some bar → piece.position bar.id = .ok p) ↔ piece.ids.Nodup := by
  constructor
  · intro hfound
    refine List.nodup_iff_getElem?_ne_getElem?.mpr fun p q hlt hq hsame ↦ ?_
    rw [ids, List.length_map] at hq
    have hp : p < piece.bars.length := Nat.lt_trans hlt hq
    rw [ids, List.getElem?_map, List.getElem?_map, List.getElem?_eq_getElem hp,
      List.getElem?_eq_getElem hq, Option.map_some, Option.map_some, Option.some.injEq] at hsame
    have hfirst := hfound p _ (List.getElem?_eq_getElem hp)
    rw [hsame, hfound q _ (List.getElem?_eq_getElem hq), Except.ok.injEq] at hfirst
    exact absurd hfirst (Nat.ne_of_gt hlt)
  · intro hnodup p bar hbar
    refine position_eq_ok_iff.mpr ⟨⟨bar, hbar, beq_self_eq_true bar.id⟩, fun q hq ↦ ?_⟩
    obtain ⟨other, hother, hsame⟩ := hq
    exact Nat.le_of_eq (index_eq_of_key_eq hnodup hbar hother (beq_iff_eq.mp hsame).symm)

/-- A range of positions has no bars just if it is not one of the piece. -/
theorem exists_barsBetween_eq_error_iff {first past : Int} :
    (∃ error, piece.barsBetween first past = .error error) ↔
      ¬ (0 ≤ first ∧ first ≤ past ∧ past ≤ piece.size) := by
  rw [barsBetween]
  split <;> simp_all

/-- The bars of two ranges, the second of which starts where the first ends, are those of both
together. -/
theorem barsBetween_append {first middle past : Int} {before after : List Bar}
    (hbefore : piece.barsBetween first middle = .ok before)
    (hafter : piece.barsBetween middle past = .ok after) :
    piece.barsBetween first past = .ok (before ++ after) := by
  obtain ⟨⟨hfirst, hle, hmiddle⟩, rfl⟩ := barsBetween_eq_ok_iff.mp hbefore
  obtain ⟨⟨-, hle', hpast⟩, rfl⟩ := barsBetween_eq_ok_iff.mp hafter
  have hsplit : piece.bars.take past.toNat =
      piece.bars.take middle.toNat ++ (piece.bars.take past.toNat).drop middle.toNat := by
    have hmin : min middle.toNat past.toNat = middle.toNat :=
      Nat.min_eq_left (Int.toNat_le_toNat hle')
    conv_lhs => rw [← List.take_append_drop middle.toNat (piece.bars.take past.toNat)]
    rw [List.take_take, hmin]
  have hwithin : first.toNat ≤ (piece.bars.take middle.toNat).length := by
    rw [size] at hmiddle
    rw [List.length_take]
    omega
  refine barsBetween_eq_ok_iff.mpr ⟨⟨hfirst, hle.trans hle', hpast⟩, ?_⟩
  conv_lhs => rw [hsplit, List.drop_append_of_le_length hwithin]

/-! ### From region to region -/

/-- Going on from one part to the next, a walk comes through these parts and then to its end. -/
inductive Visits (piece : Structure) : Option Part → List Part → Prop
  | done : Visits piece none []
  | step {part : Part} {next : Option Part} {later : List Part}
    (hnext : piece.nextPart part.label = .ok next) (hlater : Visits piece next later) :
    Visits piece (some part) (part :: later)

/-- Where all regions have labels of their own, the next part is the one behind. -/
theorem nextPart_of_nodup (hnodup : (piece.parts.toList.map Part.label).Nodup)
    (hpart : piece.parts.toList[i]? = some part) :
    piece.nextPart part.label = .ok piece.parts.toList[i + 1]? := by
  have hplace : piece.placeOf? part.label = some i := by
    obtain ⟨hlt, hget⟩ := List.getElem?_eq_some_iff.mp hpart
    refine List.findIdx?_eq_some_iff_getElem.mpr ⟨hlt, by rw [hget, beq_self_eq_true],
      fun j hj hsame ↦ ?_⟩
    have hother := List.getElem?_eq_getElem (Nat.lt_trans hj hlt)
    exact absurd (index_eq_of_key_eq hnodup hother hpart (beq_iff_eq.mp hsame)) (Nat.ne_of_lt hj)
  rw [nextPart, hplace]

/-- Where all regions have labels of their own, the walk from the first comes through all of them. -/
theorem visits_of_nodup (hnodup : (piece.parts.toList.map Part.label).Nodup) :
    piece.Visits (some piece.parts.head) piece.parts.toList := by
  have hrest : ∀ later before, piece.parts.toList = before ++ later →
      piece.Visits later.head? later := by
    intro later
    induction later with
    | nil => exact fun _ _ ↦ .done
    | cons part later ih =>
      intro before hparts
      have hpart : piece.parts.toList[before.length]? = some part := by
        rw [hparts, List.getElem?_append_right (Nat.le_refl _), Nat.sub_self, List.getElem?_cons_zero]
      refine .step (nextPart_of_nodup hnodup hpart) ?_
      have hnext : piece.parts.toList[before.length + 1]? = later.head? := by
        rw [hparts, List.getElem?_append_right (Nat.le_add_right _ 1), Nat.add_sub_cancel_left,
          List.getElem?_cons_succ, List.head?_eq_getElem?]
      rw [hnext]
      exact ih (before ++ [part]) (by rw [hparts, List.append_assoc, List.singleton_append])
  exact hrest piece.parts.toList [] rfl

/-- Regions that each are regions of their own have labels of their own. -/
theorem nodup_labels_ofRegions (regions : NonemptyList Region) (kind : Kind) :
    ((ofRegions regions kind).parts.toList.map Part.label).Nodup := by
  have hlabels : (ofRegions regions kind).parts.toList.map Part.label =
      List.range' 0 regions.length := by
    have htail : (regions.tail.zipIdx 1).map Prod.snd = List.range' 1 regions.tail.length :=
      List.zipIdx_map_snd 1 regions.tail
    rw [ofRegions, NonemptyList.toList, List.map_cons, List.map_map, NonemptyList.length,
      List.range'_succ, ← htail]
    rfl
  rw [hlabels]
  exact List.nodup_range'

/-! ### Tree and row -/

/-- The regions of a piece lie side by side in its row of bars. -/
structure TilesBars (piece : Structure) : Prop where
  /-- The row has the bars of the regions in written order. -/
  row : piece.layout.bars = piece.bars
  /-- The bars from the place of a part to the next place are those of the part. -/
  between : ∀ i part, piece.parts.toList[i]? = some part →
    piece.barsBetween (piece.offset i) (piece.offset (i + 1)) = .ok part.region.bars
  /-- At the place of a part stands its first bar. -/
  first : ∀ i part, piece.parts.toList[i]? = some part →
    piece.layout.bars[piece.offset i]? = some part.region.firstBar
  /-- Every position lies in just one part. -/
  place : ∀ p < piece.size, ∃! i, piece.LiesIn p i
  /-- The part in which a position lies owns the bar there. -/
  owner : ∀ p i, piece.LiesIn p i → piece.partAt? p = piece.parts.toList[i]?
  /-- A region owns the bars at all of its places, and no others. -/
  owned : ∀ p part, piece.partAt? p = some part ↔
    ∃ i, piece.LiesIn p i ∧ piece.parts.toList[i]? = some part
  /-- Where no region stands twice, it owns just the bars at its place. -/
  ownedOnce : piece.parts.toList.Nodup → ∀ p i part, piece.parts.toList[i]? = some part →
    (piece.partAt? p = some part ↔ piece.LiesIn p i)

theorem tilesBars (piece : Structure) : piece.TilesBars where
  row := piece.layout_bars
  between := fun _ _ ↦ barsBetween_offset
  first := fun _ _ hpart ↦ by rw [layout_bars, getElem?_offset hpart]
  place := fun _ hp ↦ by
    obtain ⟨i, hin⟩ := exists_liesIn hp
    exact ⟨i, hin, fun _ hother ↦ hother.eq hin⟩
  owner := fun _ _ ↦ partAt?_of_liesIn
  owned := fun _ _ ↦ partAt?_eq_some_iff
  ownedOnce := fun hnodup _ _ _ ↦ partAt?_eq_some_iff_liesIn hnodup

/-- What is looked up in a piece by id, by mark or by range is found in its row of bars. -/
structure FindsBars (piece : Structure) : Prop where
  /-- The position of an id is that of the first bar that has it. -/
  position : ∀ id p, piece.position id = .ok p ↔ piece.StandsFirstAt (fun bar ↦ bar.id == id) p
  /-- An id has no position just if no bar has it. -/
  unknown : ∀ id, (∃ error, piece.position id = .error error) ↔
    ∀ p, ¬ piece.StandsAt (fun bar ↦ bar.id == id) p
  /-- Every bar is found where it stands just if no two bars share an id. -/
  distinct : (∀ p bar, piece.layout.bars[p]? = some bar → piece.position bar.id = .ok p) ↔
    piece.ids.Nodup
  /-- The positions of a mark are in order. -/
  ordered : ∀ name, (piece.positionsNamed name).Pairwise (· < ·)
  /-- They are those of the bars that carry the mark. -/
  marked : ∀ name p, p ∈ piece.positionsNamed name ↔ piece.StandsAt (·.hasNamed name) p
  /-- The position of a mark is the first of them, if there is one. -/
  mark : ∀ name, piece.positionNamed name = (piece.positionsNamed name).head?
  /-- A range has no bars just if it is not one of the piece. -/
  range : ∀ first past, (∃ error, piece.barsBetween first past = .error error) ↔
    ¬ (0 ≤ first ∧ first ≤ past ∧ past ≤ (piece.size : Int))
  /-- The bars of two ranges, the second of which starts where the first ends, are those of both. -/
  joined : ∀ first middle past before after, piece.barsBetween first middle = .ok before →
    piece.barsBetween middle past = .ok after → piece.barsBetween first past = .ok (before ++ after)

theorem findsBars (piece : Structure) : piece.FindsBars where
  position := fun _ _ ↦ position_eq_ok_iff
  unknown := fun _ ↦ exists_position_eq_error_iff
  distinct := by rw [layout_bars, forall_position_eq_ok_iff]
  ordered := fun _ ↦ pairwise_positionsWhere
  marked := fun _ _ ↦ mem_positionsWhere_iff
  mark := fun _ ↦ rfl
  range := fun _ _ ↦ exists_barsBetween_eq_error_iff
  joined := fun _ _ _ _ _ ↦ barsBetween_append

/-- The tree of regions and the row of bars of a piece tell the same. In a piece that was built from
bars all regions have labels of their own, and the walk from region to region comes through each of
them once, in order, and then to its end. -/
theorem regions_agree_with_row (piece : Structure) :
    piece.TilesBars ∧ piece.FindsBars ∧
      ∀ state settled : Grouping, state.build = .ok (piece, settled) →
        (piece.parts.toList.map Part.label).Nodup ∧
          piece.Visits (some piece.parts.head) piece.parts.toList := by
  refine ⟨piece.tilesBars, piece.findsBars, fun state settled hbuild ↦ ?_⟩
  obtain ⟨regions, hpiece⟩ : ∃ regions, piece = ofRegions regions settled.kind := by
    rw [Grouping.build] at hbuild
    split at hbuild
    · cases hbuild
    · split at hbuild
      · cases hbuild
      · cases hbuild
        exact ⟨_, rfl⟩
  have hnodup : (piece.parts.toList.map Part.label).Nodup := by
    rw [hpiece]
    exact nodup_labels_ofRegions regions settled.kind
  exact ⟨hnodup, visits_of_nodup hnodup⟩

/-- A repeat of one bar, and then a bar that is still open. -/
def groupingOfRepeat : Grouping :=
  ⟨["A", "B"], [.plain (.repeated ⟨endingBar "A", []⟩)], .run ⟨unmarkedBar "B", []⟩ false 1, .bare⟩

/-- The piece that is built from it has two regions. -/
def pieceOfRepeat : Structure :=
  ofRegions ⟨.plain (.repeated ⟨endingBar "A", []⟩), [.plain (.straight ⟨unmarkedBar "B", []⟩)]⟩
    .bare

/-- The second bar is that of the second region, and the walk comes from the first region to it. -/
theorem visits_pieceOfRepeat :
    ∃ settled, groupingOfRepeat.build = .ok (pieceOfRepeat, settled) ∧ pieceOfRepeat.LiesIn 1 1 ∧
      pieceOfRepeat.partAt? 1 = pieceOfRepeat.parts.toList[1]? ∧
      pieceOfRepeat.Visits (some pieceOfRepeat.parts.head) pieceOfRepeat.parts.toList := by
  obtain ⟨htiles, -, hbuilt⟩ := regions_agree_with_row pieceOfRepeat
  have hbuild : groupingOfRepeat.build = .ok (pieceOfRepeat, groupingOfRepeat.afterBuild) := by rfl
  have hin : pieceOfRepeat.LiesIn 1 1 := ⟨by decide, by decide⟩
  exact ⟨_, hbuild, hin, htiles.owner 1 1 hin, (hbuilt _ _ hbuild).2⟩

/-- One region of a single bar that stands at two places. -/
def pieceWithRegionTwice : Structure :=
  ⟨⟨⟨0, .plain (.straight ⟨unmarkedBar "A", []⟩)⟩,
    [⟨0, .plain (.straight ⟨unmarkedBar "A", []⟩)⟩]⟩, .bare⟩

/-- A region that stands twice owns bars outside of either place. -/
theorem not_forall_owned_iff_liesIn :
    ¬ ∀ (piece : Structure) (p i : Nat) (part : Part), p < piece.size →
      piece.parts.toList[i]? = some part → (piece.partAt? p = some part ↔ piece.LiesIn p i) := by
  intro howned
  have hin := (howned pieceWithRegionTwice 0 1 ⟨0, .plain (.straight ⟨unmarkedBar "A", []⟩)⟩
    (by decide) rfl).mp rfl
  exact absurd hin.1 (by decide)

end ScoreRepeats.Structure
