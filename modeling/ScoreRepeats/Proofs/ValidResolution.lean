import ScoreRepeats.Performance
import ScoreRepeats.Proofs.GroupingAcceptance
import ScoreRepeats.Proofs.ResolvedOrder
import ScoreRepeats.Proofs.ValidationRules

/-!
# Valid pieces are played

A piece can be resolved by the index that validation gives, or by one that resolution collects
itself. Validation finds the marks in one pass and tests them by all rules; resolution looks each
mark up and has three checks of its own (`Structure.inconsistency`). On a piece that keeps the rules
the two ways lead to the same order: the indices agree, the checks find nothing
(`KeepsRules.inconsistency_eq_none`), and the walk through the replay comes to its end since the
second Coda stands behind the first (`KeepsRules.hasPairedCodas`). So nothing but a violation can
keep the bars of a score from being performed. If a number in its message is too long to be written,
this is all that is told of it (`perform_eq_unwritable_iff`).

`exists_order_of_validate` is the form in which the other results on valid pieces use this.
-/

set_option autoImplicit false
set_option relaxedAutoImplicit false

namespace ScoreRepeats

/-- No first Coda is unpaired just if each has the second behind it. -/
theorem MarkerIndex.unpairedCoda?_eq_none_iff {index : MarkerIndex} :
    index.unpairedCoda? = none ↔ ∀ first, index.codaFirst = some first →
      ∃ second, index.codaSecond = some second ∧ first < second := by
  simp [unpairedCoda?, Option.filter_eq_none_iff, Option.any_eq_true]

namespace Structure

variable {piece : Structure} {rhythm : Option Rhythm} {auftakt : Bool} {index : MarkerIndex}

/-! ### What resolution relies on -/

/-- Where the rules are kept, the bar to which a Dal Segno leads is indexed. -/
theorem KeepsRules.segno_ne_none (hkeeps : piece.KeepsRules rhythm auftakt)
    (hkind : piece.kind = .dalSegno) : (MarkerIndex.collect piece).segno ≠ none := by
  have hcount := hkeeps.segno
  rw [if_pos hkind] at hcount
  obtain ⟨segno, hsegno⟩ := countP_pos_iff.mp (by rw [hcount]; exact Nat.one_pos)
  have hplace := hkeeps.isPlaceOf_collect.1
  rw [hplace.eq_some hsegno]
  exact Option.some_ne_none _

/-- Where the rules are kept, a second Coda stands behind the first, and before Fine. -/
theorem KeepsRules.exists_codaSecond (hkeeps : piece.KeepsRules rhythm auftakt) {first : Nat}
    (hfirst : piece.StandsAt (·.has .codaFirst) first) :
    ∃ second, piece.StandsAt (·.has .codaSecond) second ∧ first < second ∧
      ∀ fine, piece.StandsAt (·.has .fine) fine → second < fine := by
  rcases hkeeps.coda with ⟨hnone, -⟩ | ⟨-, -, hcount, horder⟩
  · exact absurd hfirst (countP_eq_zero_iff.mp hnone first)
  · obtain ⟨second, hsecond⟩ := countP_pos_iff.mp (by rw [hcount]; exact Nat.one_pos)
    exact ⟨second, hsecond, horder first second hfirst hsecond⟩

/-- Where the rules are kept, an indexed first Coda has an indexed second one behind it. -/
theorem KeepsRules.exists_collect_codaSecond (hkeeps : piece.KeepsRules rhythm auftakt)
    {first : Int} (hfirst : (MarkerIndex.collect piece).codaFirst = some first) :
    ∃ second, (MarkerIndex.collect piece).codaSecond = some second ∧ first < second := by
  obtain ⟨-, -, hplaceFirst, hplaceSecond, -⟩ := hkeeps.isPlaceOf_collect
  rw [hfirst] at hplaceFirst
  obtain ⟨p, rfl, hp⟩ := hplaceFirst.exists_standsAt
  obtain ⟨second, hsecond, hlt, -⟩ := hkeeps.exists_codaSecond hp
  exact ⟨second, hplaceSecond.eq_some hsecond, Int.ofNat_lt.mpr hlt⟩

/-- Where the rules are kept, the replay gets past the first Coda. -/
theorem KeepsRules.hasPairedCodas (hkeeps : piece.KeepsRules rhythm auftakt) :
    (MarkerIndex.collect piece).HasPairedCodas := by
  intro first hfirst
  obtain ⟨second, hsecond, hlt⟩ := hkeeps.exists_collect_codaSecond hfirst
  exact ⟨second, hsecond, Int.le_of_lt hlt⟩

/-- Resolution finds nothing just if none of its three checks does. -/
theorem inconsistency_eq_none_iff :
    piece.inconsistency = none ↔
      ¬ (piece.kind = .dalSegno ∧ (MarkerIndex.collect piece).segno = none) ∧
        (MarkerIndex.collect piece).unpairedCoda? = none ∧ piece.ids.Nodup := by
  unfold inconsistency
  dsimp only
  by_cases hsegno : piece.kind = .dalSegno ∧ (MarkerIndex.collect piece).segno = none
  · simp [hsegno]
  · rw [if_neg hsegno]
    cases hcoda : (MarkerIndex.collect piece).unpairedCoda? with
    | none => simp [hsegno]
    | some first => simp

/-- Where the rules are kept, resolution finds nothing that would keep the piece from being played.
-/
theorem KeepsRules.inconsistency_eq_none (hkeeps : piece.KeepsRules rhythm auftakt) :
    piece.inconsistency = none := by
  have hsegno : ¬ (piece.kind = .dalSegno ∧ (MarkerIndex.collect piece).segno = none) :=
    fun h ↦ hkeeps.segno_ne_none h.1 h.2
  have hcoda : (MarkerIndex.collect piece).unpairedCoda? = none :=
    MarkerIndex.unpairedCoda?_eq_none_iff.mpr fun _ ↦ hkeeps.exists_collect_codaSecond
  exact inconsistency_eq_none_iff.mpr ⟨hsegno, hcoda, hkeeps.ids⟩

/-! ### Both ways to resolve a valid piece -/

/-- A piece that keeps the rules is played by its collected index. -/
theorem KeepsRules.exists_resolveWith_collect (hkeeps : piece.KeepsRules rhythm auftakt) :
    ∃ replayed, piece.IsReplay rhythm auftakt (MarkerIndex.collect piece) replayed ∧
      piece.resolveWith rhythm auftakt (MarkerIndex.collect piece) =
        .ok ⟨piece.entriesAfter [] (piece.sounding ++ replayed)⟩ :=
  exists_resolveWith_eq_ok rhythm auftakt hkeeps.ids hkeeps.segno_ne_none hkeeps.hasPairedCodas

/-- A validated piece keeps the rules, its index is the collected one, and it is played by it. -/
theorem exists_order_of_validate (hvalid : piece.validate rhythm auftakt = .ok index) :
    piece.KeepsRules rhythm auftakt ∧ index = MarkerIndex.collect piece ∧
      ∃ replayed, piece.IsReplay rhythm auftakt index replayed ∧
        piece.resolveWith rhythm auftakt index =
          .ok ⟨piece.entriesAfter [] (piece.sounding ++ replayed)⟩ := by
  obtain ⟨hnone, rfl⟩ := validate_eq_ok_iff.mp hvalid
  have hkeeps := firstViolation_eq_none_iff.mp hnone
  exact ⟨hkeeps, rfl, hkeeps.exists_resolveWith_collect⟩

/-- Where resolution finds nothing to refuse, it plays a piece by the collected index. -/
theorem resolve_of_inconsistency_eq_none (hnone : piece.inconsistency = none) :
    piece.resolve rhythm auftakt =
      piece.resolveWith rhythm auftakt (MarkerIndex.collect piece) := by
  unfold resolve
  rw [hnone]

/-- A score whose structure is valid is performed. -/
theorem exists_perform_eq_ok {bars : List Bar} (hpiece : ofBars bars = .ok piece)
    (hvalid : piece.validate rhythm auftakt = .ok index) :
    ∃ order, perform bars rhythm auftakt = .ok order := by
  obtain ⟨-, -, replayed, -, hresolve⟩ := exists_order_of_validate hvalid
  refine ⟨⟨piece.entriesAfter [] (piece.sounding ++ replayed)⟩, ?_⟩
  unfold perform
  rw [hpiece]
  dsimp only
  rw [hvalid]
  dsimp only
  rw [hresolve]
  rfl

/-- A score is refused just if its bars or its structure are. -/
theorem perform_eq_refused_iff {bars : List Bar} {refusal : Refusal} :
    perform bars rhythm auftakt = .error (.refused refusal) ↔ ofBars bars = .error refusal ∨
      ∃ piece, ofBars bars = .ok piece ∧ piece.validate rhythm auftakt = .error refusal := by
  cases hpiece : ofBars bars with
  | error other => simp [perform, hpiece]
  | ok piece =>
    cases hvalid : piece.validate rhythm auftakt with
    | error other => simp [perform, hpiece, hvalid]
    | ok index =>
      obtain ⟨order, horder⟩ := exists_perform_eq_ok hpiece hvalid
      simp [horder, hvalid]

/-- The bars of a score are performed or refused. -/
theorem perform_cases (bars : List Bar) (rhythm : Option Rhythm) (auftakt : Bool) :
    (∃ order, perform bars rhythm auftakt = .ok order) ∨
      ∃ refusal, perform bars rhythm auftakt = .error (.refused refusal) := by
  simp only [perform_eq_refused_iff]
  cases hpiece : ofBars bars with
  | error refusal => exact .inr ⟨refusal, .inl rfl⟩
  | ok piece =>
    cases hvalid : piece.validate rhythm auftakt with
    | error refusal => exact .inr ⟨refusal, .inr ⟨piece, rfl, hvalid⟩⟩
    | ok index => exact .inl (exists_perform_eq_ok hpiece hvalid)

/-- A score is refused with a number that is too long to be told just if its bars stop at the number
of a variation, or its structure at a length. -/
theorem perform_eq_unwritable_iff {bars : List Bar} :
    perform bars rhythm auftakt = .error (.refused .unwritable) ↔ StopsAtLongNumber bars ∨
      ∃ piece, ofBars bars = .ok piece ∧ piece.StopsAtLongLength rhythm auftakt := by
  simp only [perform_eq_refused_iff, Grouping.ofBars_eq_unwritable_iff, validate_eq_unwritable_iff]

/-- A validated piece gets the index that resolution collects itself. By it the piece is resolved to
a complete order, through all regions and then through all that sounds again, and without it to the
same one, since resolution finds nothing to refuse. Hence the bars of a score are performed, or they
are refused for a violation, or for a number in its message that is too long to be written. -/
theorem resolve_eq_resolveWith_of_validate (rhythm : Option Rhythm) (auftakt : Bool) :
    (∀ (piece : Structure) (index : MarkerIndex), piece.validate rhythm auftakt = .ok index →
      index = MarkerIndex.collect piece ∧ piece.inconsistency = none ∧
      ∃ order replayed, piece.resolveWith rhythm auftakt index = .ok order ∧
        piece.resolve rhythm auftakt = .ok order ∧
        piece.IsReplay rhythm auftakt index replayed ∧
        order.entries.map PlayedBar.position = piece.sounding ++ replayed) ∧
    ∀ bars : List Bar,
      ((∃ order, perform bars rhythm auftakt = .ok order) ∨
        (∃ violation, perform bars rhythm auftakt = .error (.refused (.violation violation))) ∨
        perform bars rhythm auftakt = .error (.refused .unwritable)) ∧
      (perform bars rhythm auftakt = .error (.refused .unwritable) ↔
        StopsAtLongNumber bars ∨
          ∃ piece, ofBars bars = .ok piece ∧ piece.StopsAtLongLength rhythm auftakt) := by
  refine ⟨fun piece index hvalid ↦ ?_, fun bars ↦ ⟨?_, perform_eq_unwritable_iff⟩⟩
  · obtain ⟨hkeeps, rfl, replayed, hreplay, hresolve⟩ := exists_order_of_validate hvalid
    have hnone := hkeeps.inconsistency_eq_none
    refine ⟨rfl, hnone, _, replayed, hresolve, ?_, hreplay, map_position_entriesAfter _ _⟩
    rw [resolve_of_inconsistency_eq_none hnone, hresolve]
  · rcases perform_cases bars rhythm auftakt with horder | ⟨violation | _, hrefused⟩
    · exact .inl horder
    · exact .inr (.inl ⟨violation, hrefused⟩)
    · exact .inr (.inr hrefused)

/-- A bar with a long number makes no order, and is refused for no violation. -/
theorem perform_barOfLongNumber :
    (∀ order, perform [barOfLongNumber "A"] none false ≠ .ok order) ∧
      ∀ violation, perform [barOfLongNumber "A"] none false ≠
        .error (.refused (.violation violation)) := by
  rw [perform_eq_unwritable_iff.mpr (.inl stopsAtLongNumber_barOfLongNumber)]
  exact ⟨nofun, nofun⟩

/-- A repeat, two endings after a Segno, and a pair of Codas before Fine and the Dal Segno. -/
def pieceAlCoda : Structure :=
  ofRegions
    ⟨.plain (.repeated ⟨unmarkedBar "A", []⟩),
      [.varied (.straight ⟨markedBar "B" .segno, []⟩)
        ⟨⟨unmarkedBar "C", []⟩, [⟨unmarkedBar "D", []⟩]⟩,
      .plain (.straight ⟨markedBar "E" .codaFirst, [markedBar "F" .codaSecond, markedBar "G" .fine,
        markedBar "H" .dalSegno]⟩)]⟩
    .dalSegno

/-- Where the marks of the piece al Coda stand. -/
def indexAlCoda : MarkerIndex := ⟨some 1, some 6, some 4, some 5, some 7⟩

/-- The piece al Coda is valid. -/
theorem validate_pieceAlCoda : pieceAlCoda.validate none false = .ok indexAlCoda := rfl

/-- The piece al Coda is valid, and is resolved alike with its index and without. -/
theorem resolve_pieceAlCoda :
    pieceAlCoda.validate none false = .ok indexAlCoda ∧ pieceAlCoda.inconsistency = none ∧
      ∃ order, pieceAlCoda.resolveWith none false indexAlCoda = .ok order ∧
        pieceAlCoda.resolve none false = .ok order := by
  have hvalid := validate_pieceAlCoda
  obtain ⟨-, hnone, order, -, hwith, hwithout, -⟩ :=
    (resolve_eq_resolveWith_of_validate _ _).1 _ _ hvalid
  exact ⟨hvalid, hnone, order, hwith, hwithout⟩

end Structure

end ScoreRepeats
