import Mathlib.Data.List.Chain
import ScoreRepeats.Proofs.UnvalidatedResolution

/-!
# Passes and starts of a resolved order

The passes of an order are counted by position while it is written. For its reader a pass is the
number of entries with the same id up to there (`PlayingOrder.CountsPasses`). Both counts agree on every
order that a piece is played in, also where several bars of the piece share an id: the positions of an
order are those of first bars with some id, so entries with one id stand at one position
(`Structure.IsLookUp.id_barAt_iff`).

One entry more leaves the passes before it as they are (`PlayingOrder.countsPasses_concat_iff`) and
starts where the others end (`PlayingOrder.getElem?_starts`, `PlayingOrder.totalTicks_concat`).
-/

set_option autoImplicit false
set_option relaxedAutoImplicit false

namespace ScoreRepeats

namespace PlayingOrder

variable {order : PlayingOrder} {entries : List PlayedBar}

/-! ### Counting passes -/

/-- The pass of every entry is the number of entries of its bar up to there. -/
def CountsPasses (order : PlayingOrder) : Prop :=
  ∀ k entry, order.entries[k]? = some entry →
    entry.pass = (order.entries.take (k + 1)).countP fun other ↦ other.id == entry.id

/-- With one more entry the passes are counted if they were so before, and the pass of the new entry
is the number of all entries of its bar. -/
theorem countsPasses_concat_iff {entry : PlayedBar} :
    CountsPasses ⟨entries ++ [entry]⟩ ↔
      CountsPasses ⟨entries⟩ ∧
        entry.pass = (PlayingOrder.mk (entries ++ [entry])).passesOf entry.id := by
  have htake : (entries ++ [entry]).take (entries.length + 1) = entries ++ [entry] :=
    List.take_of_length_le (by rw [List.length_append, List.length_singleton])
  have hbefore : ∀ k < entries.length, (entries ++ [entry]).take (k + 1) = entries.take (k + 1) :=
    fun k hk ↦ List.take_append_of_le_length hk
  constructor
  · intro hcounts
    refine ⟨fun k other hother ↦ ?_, ?_⟩
    · have hk : k < entries.length := (List.getElem?_eq_some_iff.mp hother).1
      rw [← hbefore k hk]
      exact hcounts k other (by rw [List.getElem?_append_left hk, hother])
    · have hlast := hcounts entries.length entry List.getElem?_concat_length
      rwa [htake] at hlast
  · rintro ⟨hcounts, hlast⟩ k other hother
    by_cases hk : k < entries.length
    · rw [List.getElem?_append_left hk] at hother
      rw [hbefore k hk]
      exact hcounts k other hother
    · have hk' : k = entries.length := by
        have hlt := (List.getElem?_eq_some_iff.mp hother).1
        rw [List.length_append, List.length_singleton] at hlt
        omega
      subst hk'
      rw [List.getElem?_concat_length, Option.some.injEq] at hother
      subst hother
      rw [htake]
      exact hlast

/-- Where the passes are counted, a bar sounds as often as the pass of its last entry says, and not
at all if it has none. -/
theorem CountsPasses.passesOf_eq (hcounts : order.CountsPasses) (id : String) :
    order.passesOf id =
      (order.entries.filter fun entry ↦ entry.id == id).getLast?.elim 0 PlayedBar.pass := by
  obtain ⟨entries⟩ := order
  induction entries using List.reverseRecOn with
  | nil => rfl
  | append_singleton entries entry ih =>
    obtain ⟨hbefore, hlast⟩ := countsPasses_concat_iff.mp hcounts
    by_cases hid : entry.id = id
    · subst hid
      simp [← hlast]
    · have hother : (entry.id == id) = false := beq_eq_false_iff_ne.mpr hid
      simpa [passesOf, hother] using ih hbefore

/-! ### Adding up lengths -/

/-- A further entry adds its length. -/
theorem totalTicks_concat (entries : List PlayedBar) (entry : PlayedBar) :
    (PlayingOrder.mk (entries ++ [entry])).totalTicks =
      (PlayingOrder.mk entries).totalTicks + entry.ticks := by
  induction entries with
  | nil => exact Nat.add_comm _ _
  | cons first rest ih => rw [List.cons_append, totalTicks_cons, ih, totalTicks_cons, Nat.add_assoc]

/-- Each entry starts after all entries before it. -/
theorem getElem?_startsFrom (tick : Nat) (entries : List PlayedBar) (k : Nat) :
    (startsFrom tick entries)[k]? =
      entries[k]?.map fun _ ↦ tick + (PlayingOrder.mk (entries.take k)).totalTicks := by
  induction entries generalizing tick k with
  | nil => rfl
  | cons first rest ih =>
    cases k with
    | zero => rfl
    | succ k =>
      simp only [startsFrom, List.getElem?_cons_succ, ih, List.take_succ_cons, totalTicks_cons,
        Nat.add_assoc]

/-- The start of an entry is the length of what sounds before it. -/
theorem getElem?_starts {k : Nat} {entry : PlayedBar} (hentry : order.entries[k]? = some entry) :
    order.starts[k]? = some (PlayingOrder.mk (order.entries.take k)).totalTicks := by
  rw [starts, getElem?_startsFrom, hentry, Option.map_some, Nat.zero_add]

/-- These are the starts of the entries of an order: the first is 0, they increase, the next one is
where the entry ends, and with the last entry the order ends. -/
structure IsTimeline (order : PlayingOrder) (starts : List Nat) : Prop where
  length : starts.length = order.length
  head : starts.head? = some 0
  increasing : starts.Pairwise (· < ·)
  next : ∀ k entry start later, order.entries[k]? = some entry → starts[k]? = some start →
    starts[k + 1]? = some later → later = start + entry.ticks
  last : ∃ start entry, starts.getLast? = some start ∧ order.entries.getLast? = some entry ∧
    start + entry.ticks = order.totalTicks

/-- Each entry ends where the next one starts. -/
theorem starts_next {k : Nat} {entry : PlayedBar} {start later : Nat}
    (hentry : order.entries[k]? = some entry) (hstart : order.starts[k]? = some start)
    (hlater : order.starts[k + 1]? = some later) : later = start + entry.ticks := by
  have hk : k + 1 < order.entries.length := by
    rw [← length, ← length_starts]
    exact (List.getElem?_eq_some_iff.mp hlater).1
  rw [getElem?_starts hentry, Option.some.injEq] at hstart
  rw [getElem?_starts (List.getElem?_eq_getElem hk), Option.some.injEq, List.take_add_one, hentry,
    Option.toList_some, totalTicks_concat, hstart] at hlater
  exact hlater.symm

/-- Where entries take time, their starts increase. -/
theorem pairwise_starts (hpositive : ∀ entry ∈ order.entries, 0 < entry.ticks) :
    order.starts.Pairwise (· < ·) := by
  rw [← List.isChain_iff_pairwise, List.isChain_iff_getElem]
  intro k hk
  have hentry : k < order.entries.length := by
    rw [← length, ← length_starts]
    exact Nat.lt_of_succ_lt hk
  have hnext := starts_next (List.getElem?_eq_getElem hentry)
    (List.getElem?_eq_getElem (Nat.lt_of_succ_lt hk)) (List.getElem?_eq_getElem hk)
  rw [hnext]
  exact Nat.lt_add_of_pos_right (hpositive _ (List.getElem_mem hentry))

/-- The starts of an order that sounds at all, and whose entries take time, are a timeline. -/
theorem isTimeline_starts (hsounds : order.entries ≠ [])
    (hpositive : ∀ entry ∈ order.entries, 0 < entry.ticks) : order.IsTimeline order.starts where
  length := order.length_starts
  head := by
    obtain ⟨first, rest, hentries⟩ := List.exists_cons_of_ne_nil hsounds
    rw [starts, hentries, startsFrom, List.head?_cons]
  increasing := pairwise_starts hpositive
  next := fun _ _ _ _ ↦ starts_next
  last := by
    obtain ⟨before, entry, hentries⟩ := (List.eq_nil_or_concat order.entries).resolve_left hsounds
    rw [List.concat_eq_append] at hentries
    have hentry : order.entries[before.length]? = some entry := by
      rw [hentries, List.getElem?_concat_length]
    have hlength : order.starts.length - 1 = before.length := by
      rw [length_starts, length, hentries, List.length_append, List.length_singleton]
      rfl
    refine ⟨(mk before).totalTicks, entry, ?_, by rw [hentries, List.getLast?_concat], ?_⟩
    · rw [List.getLast?_eq_getElem?, hlength, getElem?_starts hentry, hentries, List.take_left]
    · rw [← totalTicks_concat, ← hentries]

end PlayingOrder

/-! ### Every bar sounds -/

section LookUps

variable {locate : String → Nat} {bar : Bar}

/-- Every bar of a passage sounds at first playing. -/
theorem Passage.locate_mem_forward {passage : Passage} (hbar : bar ∈ passage.bars) :
    locate bar.id ∈ passage.forward locate := by
  cases passage with
  | straight run => exact List.mem_map_of_mem hbar
  | repeated run => exact List.mem_append_left _ (List.mem_map_of_mem hbar)

/-- Every bar of a region sounds at first playing, those that variations share with the first of
them. -/
theorem Region.locate_mem_forward {region : Region} (hbar : bar ∈ region.bars) :
    locate bar.id ∈ region.forward locate := by
  cases region with
  | plain passage => exact Passage.locate_mem_forward hbar
  | varied common variations =>
    refine List.mem_flatMap.mpr ?_
    rcases List.mem_append.mp hbar with hcommon | hvariation
    · exact ⟨variations.head, List.mem_cons_self,
        List.mem_append_left _ (Passage.locate_mem_forward hcommon)⟩
    · obtain ⟨variation, hmem, hbar⟩ := List.mem_flatMap.mp hvariation
      exact ⟨variation, hmem, List.mem_append_right _ (List.mem_map_of_mem hbar)⟩

end LookUps

namespace Structure

variable {piece : Structure} {rhythm : Option Rhythm} {auftakt : Bool} {order : PlayingOrder}

/-- Every bar of a piece sounds at first playing. -/
theorem locate_mem_forward {bar : Bar} (hbar : bar ∈ piece.bars) :
    piece.locate bar.id ∈ piece.forward := by
  obtain ⟨region, hregion, hbar⟩ := List.mem_flatMap.mp hbar
  exact List.mem_flatMap.mpr ⟨region, hregion, Region.locate_mem_forward hbar⟩

/-! ### Passes of positions and of ids -/

/-- Among the positions of first bars, only one has a bar with its id. -/
theorem IsLookUp.id_barAt_iff {p q : Nat} (hp : piece.IsLookUp p) (hq : piece.IsLookUp q) :
    (piece.barAt q).id = (piece.barAt p).id ↔ q = p := by
  obtain ⟨first, hfirst, hfirstPosition⟩ := hp.exists_bar
  obtain ⟨second, hsecond, hsecondPosition⟩ := hq.exists_bar
  rw [barAt_eq hfirst, barAt_eq hsecond]
  constructor
  · intro hsame
    rw [hsame, hfirstPosition, Except.ok.injEq] at hsecondPosition
    exact hsecondPosition.symm
  · rintro rfl
    rw [hfirst, Option.some.injEq] at hsecond
    rw [hsecond]

/-- One more position gives one more entry, the pass of which counts the position. -/
theorem entriesAfter_concat (positions : List Nat) (p : Nat) :
    piece.entriesAfter [] (positions ++ [p]) = piece.entriesAfter [] positions ++
      [⟨(piece.barAt p).id, positions.count p + 1, p, (piece.barAt p).ticks⟩] := by
  rw [entriesAfter_append, List.append_nil, entriesAfter, List.count_reverse]
  rfl

/-- Where the positions are those of first bars, to count them is to count the ids. -/
theorem countsPasses_entriesAfter {positions : List Nat}
    (hpositions : ∀ p ∈ positions, piece.IsLookUp p) :
    PlayingOrder.CountsPasses ⟨piece.entriesAfter [] positions⟩ := by
  induction positions using List.reverseRecOn with
  | nil => exact fun _ _ hentry ↦ nomatch hentry
  | append_singleton positions p ih =>
    have hp : piece.IsLookUp p := hpositions p List.mem_concat_self
    rw [entriesAfter_concat, PlayingOrder.countsPasses_concat_iff, ← entriesAfter_concat]
    refine ⟨ih fun q hq ↦ hpositions q (List.mem_append_left _ hq), ?_⟩
    rw [PlayingOrder.passesOf,
      countP_id_entriesAfter fun q hq ↦ hp.id_barAt_iff (hpositions q hq), List.count_append,
      List.count_singleton_self]

/-- An entry that is found takes time. -/
theorem IsFound.ticks_pos {entry : PlayedBar} (hfound : piece.IsFound entry) : 0 < entry.ticks := by
  obtain ⟨-, bar, -, -, hticks⟩ := hfound
  rw [← hticks]
  exact bar.ticks_pos

/-! ### The order of a piece -/

/-- A piece is played in an order, by its own marks or by an index made by hand. -/
def ResolvesTo (piece : Structure) (rhythm : Option Rhythm) (auftakt : Bool)
    (order : PlayingOrder) : Prop :=
  piece.resolve rhythm auftakt = .ok order ∨
    ∃ index, piece.resolveWith rhythm auftakt index = .ok order

/-- A piece that is played by its own marks is played by the index collected from them. -/
theorem resolveWith_collect_of_resolve (horder : piece.resolve rhythm auftakt = .ok order) :
    piece.resolveWith rhythm auftakt (MarkerIndex.collect piece) = .ok order := by
  rw [resolve] at horder
  cases hrefused : piece.inconsistency with
  | some error =>
    rw [hrefused] at horder
    cases horder
  | none => rwa [hrefused] at horder

/-- A piece is played at positions of first bars, and it is not silent. -/
theorem ResolvesTo.exists_positions (hresolves : piece.ResolvesTo rhythm auftakt order) :
    ∃ positions, order = ⟨piece.entriesAfter [] positions⟩ ∧ positions ≠ [] ∧
      ∀ p ∈ positions, piece.IsLookUp p := by
  obtain ⟨index, horder⟩ : ∃ index, piece.resolveWith rhythm auftakt index = .ok order := by
    rcases hresolves with hown | hgiven
    · exact ⟨_, resolveWith_collect_of_resolve hown⟩
    · exact hgiven
  rcases resolveWith_outcomes piece rhythm auftakt index with ⟨replayed, hok, hlookup⟩ |
    ⟨herror, -⟩ | ⟨herror, -⟩
  · rw [hok, Except.ok.injEq] at horder
    refine ⟨_, horder.symm, ?_, hlookup⟩
    have hfirst : piece.locate piece.firstBar.id ∈ piece.forward :=
      locate_mem_forward (List.mem_of_head? piece.head?_bars)
    exact List.ne_nil_of_mem (List.mem_append_left _ hfirst)
  · rw [herror] at horder
    cases horder
  · rw [herror] at horder
    cases horder

/-- In every order that a piece is played in, with any index and also where bars share an id, an
entry shows the first bar that has its id, and its pass is the number of entries of the bar up to
there. So a bar sounds as often as the pass of its last entry says. The starts follow each other from
0 on without gaps, up to the length of the order. -/
theorem resolved_passes_and_starts (hresolves : piece.ResolvesTo rhythm auftakt order) :
    (∀ entry ∈ order.entries, piece.IsFound entry ∧
        piece.StandsFirstAt (fun bar ↦ bar.id == entry.id) entry.position) ∧
      order.CountsPasses ∧
      (∀ id, order.passesOf id =
        (order.entries.filter fun entry ↦ entry.id == id).getLast?.elim 0 PlayedBar.pass) ∧
      order.IsTimeline order.starts := by
  obtain ⟨positions, rfl, hsounds, hlookup⟩ := hresolves.exists_positions
  have hfound : ∀ entry ∈ piece.entriesAfter [] positions, piece.IsFound entry :=
    fun entry hentry ↦ isFound_of_mem_entriesAfter hlookup hentry
  have hcounts := countsPasses_entriesAfter hlookup
  have hentries : piece.entriesAfter [] positions ≠ [] := by
    rw [← List.map_eq_nil_iff.ne, map_position_entriesAfter]
    exact hsounds
  refine ⟨fun entry hentry ↦ ⟨hfound entry hentry, ?_⟩, hcounts, hcounts.passesOf_eq, ?_⟩
  · exact position_eq_ok_iff.mp (hfound entry hentry).1
  · exact PlayingOrder.isTimeline_starts hentries fun entry hentry ↦ (hfound entry hentry).ticks_pos

/-- A repeat of two bars and two more bars, of which the first has an id that is taken. -/
def pieceWithTakenId : Structure :=
  ofRegions
    ⟨.plain (.repeated ⟨unmarkedBar "A", [unmarkedBar "B"]⟩),
      [.plain (.straight ⟨unmarkedBar "A", [unmarkedBar "C"]⟩)]⟩
    .bare

/-- By an index without marks the piece is played, and the bar behind the repeat is taken for the
first bar, which so sounds a third time. -/
theorem passes_pieceWithTakenId :
    ∃ order, pieceWithTakenId.ResolvesTo none false order ∧
      order.pairs = [("A", 1), ("B", 1), ("A", 2), ("B", 2), ("A", 3), ("C", 1)] ∧
      order.passesOf "A" = 3 ∧ order.CountsPasses ∧ order.IsTimeline order.starts := by
  have hresolves : pieceWithTakenId.ResolvesTo none false
      ⟨pieceWithTakenId.entriesAfter [] [0, 1, 0, 1, 0, 3]⟩ := by
    exact .inr ⟨⟨none, none, none, none, none⟩, by decide⟩
  obtain ⟨-, hcounts, hpasses, htimeline⟩ := resolved_passes_and_starts hresolves
  exact ⟨_, hresolves, by decide, hpasses "A", hcounts, htimeline⟩

end Structure

end ScoreRepeats
