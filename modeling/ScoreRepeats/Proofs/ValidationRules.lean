import Mathlib.Data.List.Basic
import Mathlib.Data.List.Nodup
import ScoreRepeats.Proofs.MarkerPlaces
import ScoreRepeats.Proofs.PlainBars
import ScoreRepeats.Validation

/-!
# The rules that a piece must keep

What it means to break a rule is said for each rule by itself (`Structure.Breaks`), and what a piece
must be like to break none is said for each group of marks (`Structure.KeepsRules`). Validation goes
through the rules in a fixed order (`checkedRules`); many of its tests say what they should only where
the rules before them are kept. `Finds` states what the answer of such a test has to be, and
`finds_findSome?_cons` puts the tests together.
-/

set_option autoImplicit false
set_option relaxedAutoImplicit false

namespace ScoreRepeats

/-- The rules in the order in which they are checked. -/
def checkedRules : List Rule :=
  [.duplicateBarId, .duplicatedJump, .misplacedJump, .missingSegno, .duplicatedSegno,
    .unexpectedSegno, .fineWithoutJump, .duplicatedFine, .segnoAfterFine, .codaWithoutJump,
    .codaCountInvalid, .codaOrderInvalid, .codaAfterFine, .insufficientVariations,
    .auftaktArithmeticMismatch]

/-- All rules are checked but the one on the form of a score, which grouping keeps. -/
theorem mem_checkedRules_iff {rule : Rule} : rule ∈ checkedRules ↔ rule ≠ .malformedStructure := by
  cases rule <;> simp [checkedRules]

/-- The rule on the pickup is the last one that is checked. -/
theorem mem_dropLast_checkedRules_iff {rule : Rule} : rule ∈ checkedRules.dropLast ↔
    rule ≠ .malformedStructure ∧ rule ≠ .auftaktArithmeticMismatch := by
  cases rule <;> simp [checkedRules]

/-- A rule is broken, and none that comes before it in the list. -/
def IsFirstBroken (broken : Rule → Prop) (rules : List Rule) (rule : Rule) : Prop :=
  broken rule ∧ ∃ before after, rules = before ++ rule :: after ∧ ∀ kept ∈ before, ¬ broken kept

/-- An answer reports the first broken rule of a list, or nothing if all are kept. -/
def Finds (broken : Rule → Prop) (rules : List Rule) : Option Violation → Prop
  | none => ∀ rule ∈ rules, ¬ broken rule
  | some violation => IsFirstBroken broken rules violation.rule

/-- Where the first rules are kept, the answer is the one about the others. -/
theorem Finds.append_of_kept {broken : Rule → Prop} {first rest : List Rule}
    {answer : Option Violation} (hkept : ∀ rule ∈ first, ¬ broken rule)
    (hrest : Finds broken rest answer) : Finds broken (first ++ rest) answer := by
  cases answer with
  | none => exact List.forall_mem_append.mpr ⟨hkept, hrest⟩
  | some violation =>
    obtain ⟨hbroken, before, after, rfl, hbefore⟩ := hrest
    exact ⟨hbroken, first ++ before, after, by simp,
      List.forall_mem_append.mpr ⟨hkept, hbefore⟩⟩

/-- An answer about the first rules, then one about the others where the first are kept. -/
theorem finds_findSome?_cons {broken : Rule → Prop} {first rest : List Rule}
    {answer : Option Violation} {answers : List (Option Violation)}
    (hfirst : Finds broken first answer)
    (hrest : (∀ rule ∈ first, ¬ broken rule) → Finds broken rest (answers.findSome? id)) :
    Finds broken (first ++ rest) ((answer :: answers).findSome? id) := by
  cases answer with
  | none => exact Finds.append_of_kept hfirst (hrest hfirst)
  | some violation =>
    obtain ⟨hbroken, before, after, rfl, hkept⟩ := hfirst
    exact ⟨hbroken, before, after ++ rest, by simp, hkept⟩

/-- A broken rule that is alone in its list is the first one. -/
theorem isFirstBroken_singleton {broken : Rule → Prop} {rule : Rule} (hbroken : broken rule) :
    IsFirstBroken broken [rule] rule :=
  ⟨hbroken, [], [], rfl, by simp⟩

namespace Structure

/-- What it means that a piece breaks a rule. -/
def Breaks (piece : Structure) (rhythm : Option Rhythm) (auftakt : Bool) : Rule → Prop
  | .malformedStructure => False
  | .duplicateBarId => ¬ piece.ids.Nodup
  | .duplicatedJump => 1 < piece.bars.countP Bar.hasJump
  | .misplacedJump => ∃ p, piece.StandsAt Bar.hasJump p ∧ p + 1 ≠ piece.size
  | .missingSegno => piece.kind = .dalSegno ∧ piece.bars.countP (·.has .segno) = 0
  | .duplicatedSegno => piece.kind = .dalSegno ∧ 1 < piece.bars.countP (·.has .segno)
  | .unexpectedSegno => piece.kind ≠ .dalSegno ∧ 0 < piece.bars.countP (·.has .segno)
  | .fineWithoutJump => piece.kind = .bare ∧ 0 < piece.bars.countP (·.has .fine)
  | .duplicatedFine => 1 < piece.bars.countP (·.has .fine)
  | .segnoAfterFine => ∃ segno fine, piece.StandsAt (·.has .segno) segno ∧
      piece.StandsAt (·.has .fine) fine ∧ fine ≤ segno
  | .codaWithoutJump => piece.kind = .bare ∧
      ∃ p, piece.StandsAt (fun bar ↦ bar.has .codaFirst || bar.has .codaSecond) p
  | .codaCountInvalid =>
      (∃ p, piece.StandsAt (fun bar ↦ bar.has .codaFirst || bar.has .codaSecond) p) ∧
      ¬ (piece.bars.countP (·.has .codaFirst) = 1 ∧ piece.bars.countP (·.has .codaSecond) = 1)
  | .codaOrderInvalid => ∃ first second, piece.StandsAt (·.has .codaFirst) first ∧
      piece.StandsAt (·.has .codaSecond) second ∧ second ≤ first
  | .codaAfterFine => ∃ second fine, piece.StandsAt (·.has .codaSecond) second ∧
      piece.StandsAt (·.has .fine) fine ∧ fine ≤ second
  | .insufficientVariations => ∃ common variations,
      Region.varied common variations ∈ piece.regions.toList ∧ variations.length < 2
  | .auftaktArithmeticMismatch => auftakt = true ∧ piece.kind = .daCapo ∧
      piece.lastBar.ticks ≠ Rhythm.fullBarOf rhythm ∧
      piece.firstBar.ticks + piece.lastBar.ticks ≠ Rhythm.fullBarOf rhythm

/-- What a piece that breaks no rule is like. -/
structure KeepsRules (piece : Structure) (rhythm : Option Rhythm) (auftakt : Bool) : Prop where
  ids : piece.ids.Nodup
  jump : piece.bars.countP Bar.hasJump ≤ 1 ∧
    ∀ p, piece.StandsAt Bar.hasJump p → p + 1 = piece.size
  segno : piece.bars.countP (·.has .segno) = if piece.kind = .dalSegno then 1 else 0
  fine : piece.bars.countP (·.has .fine) ≤ (if piece.kind = .bare then 0 else 1) ∧
    ∀ segno fine, piece.StandsAt (·.has .segno) segno → piece.StandsAt (·.has .fine) fine →
      segno < fine
  coda : (piece.bars.countP (·.has .codaFirst) = 0 ∧ piece.bars.countP (·.has .codaSecond) = 0) ∨
    piece.kind ≠ .bare ∧
      piece.bars.countP (·.has .codaFirst) = 1 ∧ piece.bars.countP (·.has .codaSecond) = 1 ∧
      ∀ first second, piece.StandsAt (·.has .codaFirst) first →
        piece.StandsAt (·.has .codaSecond) second →
        first < second ∧ ∀ fine, piece.StandsAt (·.has .fine) fine → second < fine
  variations : ∀ common variations, Region.varied common variations ∈ piece.regions.toList →
    2 ≤ variations.length
  pickup : auftakt = true → piece.kind = .daCapo →
    piece.lastBar.ticks = Rhythm.fullBarOf rhythm ∨
      piece.firstBar.ticks + piece.lastBar.ticks = Rhythm.fullBarOf rhythm

variable {piece : Structure} {rhythm : Option Rhythm} {auftakt : Bool}

/-! ### Rules and listed positions -/

theorem breaks_duplicatedJump_iff : piece.Breaks rhythm auftakt .duplicatedJump ↔
    1 < piece.jumpPositions.length := by
  rw [jumpPositions, length_positionsWhere]
  rfl

theorem breaks_misplacedJump_iff : piece.Breaks rhythm auftakt .misplacedJump ↔
    ∃ p, p ∈ piece.jumpPositions ∧ p + 1 ≠ piece.size := by
  simp only [jumpPositions, mem_positionsWhere_iff]
  rfl

theorem breaks_missingSegno_iff : piece.Breaks rhythm auftakt .missingSegno ↔
    piece.kind = .dalSegno ∧ (piece.positionsOf .segno).length = 0 := by
  rw [positionsOf, length_positionsWhere]
  rfl

theorem breaks_duplicatedSegno_iff : piece.Breaks rhythm auftakt .duplicatedSegno ↔
    piece.kind = .dalSegno ∧ 1 < (piece.positionsOf .segno).length := by
  rw [positionsOf, length_positionsWhere]
  rfl

theorem breaks_unexpectedSegno_iff : piece.Breaks rhythm auftakt .unexpectedSegno ↔
    piece.kind ≠ .dalSegno ∧ 0 < (piece.positionsOf .segno).length := by
  rw [positionsOf, length_positionsWhere]
  rfl

theorem breaks_fineWithoutJump_iff : piece.Breaks rhythm auftakt .fineWithoutJump ↔
    piece.kind = .bare ∧ 0 < (piece.positionsOf .fine).length := by
  rw [positionsOf, length_positionsWhere]
  rfl

theorem breaks_duplicatedFine_iff : piece.Breaks rhythm auftakt .duplicatedFine ↔
    1 < (piece.positionsOf .fine).length := by
  rw [positionsOf, length_positionsWhere]
  rfl

theorem breaks_segnoAfterFine_iff : piece.Breaks rhythm auftakt .segnoAfterFine ↔
    ∃ segno fine, segno ∈ piece.positionsOf .segno ∧ fine ∈ piece.positionsOf .fine ∧
      fine ≤ segno := by
  simp only [positionsOf, mem_positionsWhere_iff]
  rfl

/-- The positions of the bars with a Coda. -/
def codaPositions (piece : Structure) : List Nat :=
  piece.positionsWhere fun bar ↦ bar.has .codaFirst || bar.has .codaSecond

/-- A Coda stands somewhere just if its position is listed. -/
theorem exists_standsAt_coda_iff :
    (∃ p, piece.StandsAt (fun bar ↦ bar.has .codaFirst || bar.has .codaSecond) p) ↔
      piece.codaPositions ≠ [] := by
  rw [← List.length_pos_iff, List.length_pos_iff_exists_mem]
  simp only [codaPositions, mem_positionsWhere_iff]

theorem breaks_codaWithoutJump_iff : piece.Breaks rhythm auftakt .codaWithoutJump ↔
    piece.kind = .bare ∧ piece.codaPositions ≠ [] := by
  rw [← exists_standsAt_coda_iff]
  rfl

theorem breaks_codaCountInvalid_iff : piece.Breaks rhythm auftakt .codaCountInvalid ↔
    piece.codaPositions ≠ [] ∧ ¬ ((piece.positionsOf .codaFirst).length = 1 ∧
      (piece.positionsOf .codaSecond).length = 1) := by
  rw [← exists_standsAt_coda_iff, positionsOf, positionsOf, length_positionsWhere,
    length_positionsWhere]
  rfl

theorem breaks_codaOrderInvalid_iff : piece.Breaks rhythm auftakt .codaOrderInvalid ↔
    ∃ first second, first ∈ piece.positionsOf .codaFirst ∧
      second ∈ piece.positionsOf .codaSecond ∧ second ≤ first := by
  simp only [positionsOf, mem_positionsWhere_iff]
  rfl

theorem breaks_codaAfterFine_iff : piece.Breaks rhythm auftakt .codaAfterFine ↔
    ∃ second fine, second ∈ piece.positionsOf .codaSecond ∧ fine ∈ piece.positionsOf .fine ∧
      fine ≤ second := by
  simp only [positionsOf, mem_positionsWhere_iff]
  rfl

/-! ### The tests, group by group -/

/-- An id that stands before the place of a bar is used twice. -/
theorem nodup_ids_iff_locate :
    piece.ids.Nodup ↔ ∀ (p : Nat) (id : String), piece.ids[p]? = some id → p ≤ piece.locate id := by
  constructor
  · intro hnodup p id hid
    obtain ⟨hp, rfl⟩ := List.getElem?_eq_some_iff.mp hid
    exact Nat.le_of_eq (hnodup.idxOf_getElem p hp).symm
  · intro hlocate
    rw [List.nodup_iff_getElem?_ne_getElem?]
    intro i j hij hj heq
    have hid : piece.ids[j]? = some piece.ids[j] := List.getElem?_eq_getElem hj
    have hmem : piece.ids[j] ∈ piece.ids.take j := by
      refine List.mem_of_getElem? (?_ : (piece.ids.take j)[i]? = some piece.ids[j])
      rw [List.getElem?_take_of_lt hij, heq, hid]
    rw [List.mem_take_iff_idxOf_lt (List.getElem_mem hj)] at hmem
    exact absurd (hlocate j _ hid) (Nat.not_le.mpr hmem)

/-- The test of the ids. -/
theorem finds_idViolation :
    Finds (piece.Breaks rhythm auftakt) [.duplicateBarId] piece.idViolation := by
  cases hanswer : piece.idViolation with
  | none =>
    rw [idViolation, List.findSome?_eq_none_iff] at hanswer
    refine List.forall_mem_singleton.mpr (not_not.mpr (nodup_ids_iff_locate.mpr ?_))
    intro p id hid
    have hnone := hanswer (id, p) (List.mk_mem_zipIdx_iff_getElem?.mpr hid)
    by_contra hlt
    simp [Nat.lt_of_not_le hlt] at hnone
  | some violation =>
    obtain ⟨⟨id, p⟩, hmem, hsome⟩ := List.exists_of_findSome?_eq_some hanswer
    rw [List.mk_mem_zipIdx_iff_getElem?] at hmem
    dsimp only at hsome
    split_ifs at hsome with hlt
    rw [← Option.some.inj hsome]
    refine isFirstBroken_singleton fun hnodup ↦ ?_
    exact absurd (nodup_ids_iff_locate.mp hnodup p id hmem) (Nat.not_le.mpr hlt)

/-- The test of the jump instruction. -/
theorem finds_jumpViolation :
    Finds (piece.Breaks rhythm auftakt) [.duplicatedJump, .misplacedJump] piece.jumpViolation := by
  have hduplicated := @breaks_duplicatedJump_iff piece rhythm auftakt
  have hmisplaced := @breaks_misplacedJump_iff piece rhythm auftakt
  unfold jumpViolation
  rcases hjumps : piece.jumpPositions with _ | ⟨jump, _ | ⟨second, more⟩⟩ <;>
    rw [hjumps] at hduplicated hmisplaced
  · simp [Finds, hduplicated, hmisplaced]
  · show Finds _ _ (if jump + 1 = piece.size then none else _)
    have hone : ¬ piece.Breaks rhythm auftakt .duplicatedJump := by simp [hduplicated]
    split_ifs with hlast
    · simp [Finds, hone, hmisplaced, hlast]
    · refine ⟨hmisplaced.mpr ⟨jump, List.mem_cons_self, hlast⟩, [.duplicatedJump], [], rfl, ?_⟩
      simpa using hone
  · exact ⟨hduplicated.mpr (by simp), [], [.misplacedJump], rfl, by simp⟩

/-- Without a Dal Segno, every Segno is one too many. -/
theorem segnoViolation_of_ne_dalSegno (hkind : piece.kind ≠ .dalSegno) :
    piece.segnoViolation = if piece.positionsOf .segno = [] then none
      else some (.segnoUnused piece.kind (piece.positionsOf .segno)) := by
  unfold segnoViolation
  cases hsegnos : piece.positionsOf .segno <;> cases hother : piece.kind <;>
    first | rfl | exact absurd hother hkind

/-- The test of the Segno. -/
theorem finds_segnoViolation :
    Finds (piece.Breaks rhythm auftakt) [.missingSegno, .duplicatedSegno, .unexpectedSegno]
      piece.segnoViolation := by
  have hmissing := @breaks_missingSegno_iff piece rhythm auftakt
  have hduplicated := @breaks_duplicatedSegno_iff piece rhythm auftakt
  have hunexpected := @breaks_unexpectedSegno_iff piece rhythm auftakt
  by_cases hkind : piece.kind = .dalSegno
  · unfold segnoViolation
    rcases hsegnos : piece.positionsOf .segno with _ | ⟨segno, _ | ⟨second, more⟩⟩ <;>
      rw [hkind, hsegnos] at hmissing hduplicated hunexpected <;> rw [hkind]
    · exact ⟨hmissing.mpr ⟨rfl, rfl⟩, [], _, rfl, by simp⟩
    · simp [Finds, hmissing, hduplicated, hunexpected]
    · refine ⟨hduplicated.mpr ⟨rfl, by simp⟩, [.missingSegno], [.unexpectedSegno], rfl, ?_⟩
      simp [hmissing]
  · rw [segnoViolation_of_ne_dalSegno hkind]
    split_ifs with hsegnos
    · simp [Finds, hmissing, hduplicated, hunexpected, hkind, hsegnos]
    · refine ⟨hunexpected.mpr ⟨hkind, List.length_pos_iff.mpr hsegnos⟩,
        [.missingSegno, .duplicatedSegno], [], rfl, ?_⟩
      simp [hmissing, hduplicated, hkind]

/-- Where the Segno rules are kept, no more than one bar carries a Segno. -/
theorem countP_segno_le_one (hduplicated : ¬ piece.Breaks rhythm auftakt .duplicatedSegno)
    (hunexpected : ¬ piece.Breaks rhythm auftakt .unexpectedSegno) :
    piece.bars.countP (·.has .segno) ≤ 1 := by
  by_cases hkind : piece.kind = .dalSegno
  · by_contra hmore
    exact hduplicated ⟨hkind, by omega⟩
  · by_contra hmore
    exact hunexpected ⟨hkind, by omega⟩

/-- Where there is a jump, an only Fine has to stand after the Segno. -/
theorem fineViolation_of_only {fine : Nat} (hkind : piece.kind ≠ .bare)
    (hfine : piece.positionsOf .fine = [fine]) :
    piece.fineViolation = (piece.positionOf .segno).bind fun segno ↦
      if segno < fine then none else some (.segnoNotBeforeFine segno fine) := by
  unfold fineViolation
  rw [hfine]
  show (if _ then _ else if _ then _ else _) = _
  rw [if_neg hkind, if_neg (by simp)]
  cases piece.positionOf .segno <;> rfl

/-- The test of an only Fine, where no more than one bar carries a Segno. -/
theorem finds_segnoBeforeFine {fine : Nat} (hsegno : piece.bars.countP (·.has .segno) ≤ 1)
    (hfine : piece.positionsOf .fine = [fine]) :
    Finds (piece.Breaks rhythm auftakt) [.segnoAfterFine]
      ((piece.positionOf .segno).bind fun segno ↦
        if segno < fine then none else some (.segnoNotBeforeFine segno fine)) := by
  have hlate := @breaks_segnoAfterFine_iff piece rhythm auftakt
  have hone : (piece.positionsOf .segno).length ≤ 1 := by rwa [positionsOf, length_positionsWhere]
  unfold positionOf
  rcases hsegnos : piece.positionsOf .segno with _ | ⟨segno, _ | ⟨second, more⟩⟩
  · rw [hsegnos] at hlate
    simp [Finds, hlate]
  · rw [hsegnos, hfine] at hlate
    show Finds _ _ (if segno < fine then none else _)
    split_ifs with hbefore
    · simp [Finds, hlate, hbefore]
    · refine isFirstBroken_singleton (hlate.mpr ⟨segno, fine, ?_⟩)
      exact ⟨List.mem_cons_self, List.mem_cons_self, Nat.not_lt.mp hbefore⟩
  · rw [hsegnos] at hone
    simp at hone

/-- The test of Fine, where no more than one bar carries a Segno. -/
theorem finds_fineViolation (hsegno : piece.bars.countP (·.has .segno) ≤ 1) :
    Finds (piece.Breaks rhythm auftakt) [.fineWithoutJump, .duplicatedFine, .segnoAfterFine]
      piece.fineViolation := by
  have hunused := @breaks_fineWithoutJump_iff piece rhythm auftakt
  have hduplicated := @breaks_duplicatedFine_iff piece rhythm auftakt
  have hlate := @breaks_segnoAfterFine_iff piece rhythm auftakt
  rcases hfines : piece.positionsOf .fine with _ | ⟨fine, more⟩
  · rw [hfines] at hunused hduplicated hlate
    unfold fineViolation
    rw [hfines]
    simp [Finds, hunused, hduplicated, hlate]
  · rw [hfines] at hunused hduplicated
    by_cases hkind : piece.kind = .bare
    · unfold fineViolation
      rw [hfines]
      show Finds _ _ (if _ then _ else _)
      rw [if_pos hkind]
      exact ⟨hunused.mpr ⟨hkind, by simp⟩, [], _, rfl, by simp⟩
    · have hused : ¬ piece.Breaks rhythm auftakt .fineWithoutJump := by simp [hunused, hkind]
      cases more with
      | nil =>
        have hone : ¬ piece.Breaks rhythm auftakt .duplicatedFine := by simp [hduplicated]
        have hkept : ∀ rule ∈ [Rule.fineWithoutJump, .duplicatedFine],
            ¬ piece.Breaks rhythm auftakt rule := by simp [hused, hone]
        rw [fineViolation_of_only hkind hfines]
        exact Finds.append_of_kept hkept (finds_segnoBeforeFine hsegno hfines)
      | cons second more =>
        unfold fineViolation
        rw [hfines]
        show Finds _ _ (if _ then _ else if _ then _ else _)
        rw [if_neg hkind, if_pos (by simp)]
        exact ⟨hduplicated.mpr (by simp), [.fineWithoutJump], _, rfl, by simp [hused]⟩

/-- Without Codas there is nothing to refuse. -/
theorem codaViolation_of_nil (hcodas : piece.codaPositions = []) : piece.codaViolation = none := by
  unfold codaPositions at hcodas
  unfold codaViolation
  rw [hcodas]

/-- In a piece without a jump every Coda is one too many. -/
theorem codaViolation_of_bare (hcodas : piece.codaPositions ≠ []) (hkind : piece.kind = .bare) :
    piece.codaViolation = some (.codaUnused piece.codaPositions) := by
  unfold codaPositions at hcodas ⊢
  unfold codaViolation
  split
  · contradiction
  · rw [if_pos hkind]

/-- Where there is a jump, Codas that are no pair are refused. -/
theorem codaViolation_of_not_pair (hcodas : piece.codaPositions ≠ []) (hkind : piece.kind ≠ .bare)
    (hpair : ¬ ((piece.positionsOf .codaFirst).length = 1 ∧
      (piece.positionsOf .codaSecond).length = 1)) :
    piece.codaViolation = some (.codaNotPaired piece.codaPositions) := by
  unfold codaPositions at hcodas ⊢
  unfold codaViolation
  split
  · contradiction
  · rw [if_neg hkind]
    split
    · rename_i hfirst hsecond
      rw [hfirst, hsecond] at hpair
      exact absurd ⟨rfl, rfl⟩ hpair
    · rfl

/-- Where there is a jump, a pair of Codas has to be in order and before Fine. -/
theorem codaViolation_of_pair {first second : Nat} (hcodas : piece.codaPositions ≠ [])
    (hkind : piece.kind ≠ .bare) (hfirst : piece.positionsOf .codaFirst = [first])
    (hsecond : piece.positionsOf .codaSecond = [second]) :
    piece.codaViolation = if second ≤ first then some (.codasReversed first second)
      else (piece.positionOf .fine).bind fun fine ↦
        if second < fine then none else some (.codasNotBeforeFine first second fine) := by
  unfold codaPositions at hcodas
  unfold codaViolation
  split
  · contradiction
  · rw [if_neg hkind, hfirst, hsecond]
    cases piece.positionOf .fine <;> rfl

/-- The test of a pair of Codas, where no more than one bar carries a Fine. -/
theorem finds_codasInOrder {first second : Nat} (hfine : piece.bars.countP (·.has .fine) ≤ 1)
    (hfirst : piece.positionsOf .codaFirst = [first])
    (hsecond : piece.positionsOf .codaSecond = [second]) :
    Finds (piece.Breaks rhythm auftakt) [.codaOrderInvalid, .codaAfterFine]
      (if second ≤ first then some (.codasReversed first second)
      else (piece.positionOf .fine).bind fun fine ↦
        if second < fine then none else some (.codasNotBeforeFine first second fine)) := by
  have hreversed := @breaks_codaOrderInvalid_iff piece rhythm auftakt
  have hlate := @breaks_codaAfterFine_iff piece rhythm auftakt
  have hone : (piece.positionsOf .fine).length ≤ 1 := by rwa [positionsOf, length_positionsWhere]
  rw [hfirst, hsecond] at hreversed
  rw [hsecond] at hlate
  split_ifs with horder
  · refine ⟨hreversed.mpr ⟨first, second, ?_⟩, [], _, rfl, by simp⟩
    exact ⟨List.mem_cons_self, List.mem_cons_self, horder⟩
  · have hordered : ¬ piece.Breaks rhythm auftakt .codaOrderInvalid := by
      simpa [hreversed] using horder
    unfold positionOf
    rcases hfines : piece.positionsOf .fine with _ | ⟨fine, _ | ⟨other, more⟩⟩
    · rw [hfines] at hlate
      simp [Finds, hordered, hlate]
    · rw [hfines] at hlate
      show Finds _ _ (if second < fine then none else _)
      split_ifs with hbefore
      · simp [Finds, hordered, hlate, hbefore]
      · refine ⟨hlate.mpr ⟨second, fine, ?_⟩, [.codaOrderInvalid], [], rfl, by simp [hordered]⟩
        exact ⟨List.mem_cons_self, List.mem_cons_self, Nat.not_lt.mp hbefore⟩
    · rw [hfines] at hone
      simp at hone

/-- Without Codas no rule about them is broken. -/
theorem not_breaks_of_no_codas (hcodas : piece.codaPositions = []) :
    ∀ rule ∈ [Rule.codaWithoutJump, .codaCountInvalid, .codaOrderInvalid, .codaAfterFine],
      ¬ piece.Breaks rhythm auftakt rule := by
  have hnone : ∀ second, second ∉ piece.positionsOf .codaSecond := by
    intro second hsecond
    rw [positionsOf, mem_positionsWhere_iff] at hsecond
    exact exists_standsAt_coda_iff.mp ⟨second, standsAt_or_iff.mpr (.inr hsecond)⟩ hcodas
  have hunused : ¬ piece.Breaks rhythm auftakt .codaWithoutJump := by
    simp [breaks_codaWithoutJump_iff, hcodas]
  have hpaired : ¬ piece.Breaks rhythm auftakt .codaCountInvalid := by
    simp [breaks_codaCountInvalid_iff, hcodas]
  have hordered : ¬ piece.Breaks rhythm auftakt .codaOrderInvalid := by
    simp [breaks_codaOrderInvalid_iff, hnone]
  have hearly : ¬ piece.Breaks rhythm auftakt .codaAfterFine := by
    simp [breaks_codaAfterFine_iff, hnone]
  simp [hunused, hpaired, hordered, hearly]

/-- The test of the Codas, where no more than one bar carries a Fine. -/
theorem finds_codaViolation (hfine : piece.bars.countP (·.has .fine) ≤ 1) :
    Finds (piece.Breaks rhythm auftakt)
      [.codaWithoutJump, .codaCountInvalid, .codaOrderInvalid, .codaAfterFine]
      piece.codaViolation := by
  have hunused := @breaks_codaWithoutJump_iff piece rhythm auftakt
  have hunpaired := @breaks_codaCountInvalid_iff piece rhythm auftakt
  by_cases hcodas : piece.codaPositions = []
  · rw [codaViolation_of_nil hcodas]
    exact not_breaks_of_no_codas hcodas
  · by_cases hkind : piece.kind = .bare
    · rw [codaViolation_of_bare hcodas hkind]
      exact ⟨hunused.mpr ⟨hkind, hcodas⟩, [], _, rfl, by simp⟩
    · have hused : ¬ piece.Breaks rhythm auftakt .codaWithoutJump := by simp [hunused, hkind]
      by_cases hpair : (piece.positionsOf .codaFirst).length = 1 ∧
          (piece.positionsOf .codaSecond).length = 1
      · have hpaired : ¬ piece.Breaks rhythm auftakt .codaCountInvalid := by
          simp [hunpaired, hpair]
        have hkept : ∀ rule ∈ [Rule.codaWithoutJump, .codaCountInvalid],
            ¬ piece.Breaks rhythm auftakt rule := by simp [hused, hpaired]
        obtain ⟨first, hfirst⟩ := List.length_eq_one_iff.mp hpair.1
        obtain ⟨second, hsecond⟩ := List.length_eq_one_iff.mp hpair.2
        rw [codaViolation_of_pair hcodas hkind hfirst hsecond]
        exact Finds.append_of_kept hkept (finds_codasInOrder hfine hfirst hsecond)
      · rw [codaViolation_of_not_pair hcodas hkind hpair]
        exact ⟨hunpaired.mpr ⟨hcodas, hpair⟩, [.codaWithoutJump], _, rfl, by simp [hused]⟩

/-- The test of the variations. -/
theorem finds_variationViolation :
    Finds (piece.Breaks rhythm auftakt) [.insufficientVariations] piece.variationViolation := by
  cases hanswer : piece.variationViolation with
  | none =>
    rw [variationViolation, List.findSome?_eq_none_iff] at hanswer
    refine List.forall_mem_singleton.mpr ?_
    rintro ⟨common, variations, hmem, hfew⟩
    have hnone := hanswer _ hmem
    simp [Nat.not_le.mpr hfew] at hnone
  | some violation =>
    obtain ⟨region, hmem, hsome⟩ := List.exists_of_findSome?_eq_some hanswer
    cases region with
    | plain passage => cases hsome
    | varied common variations =>
      dsimp only at hsome
      split_ifs at hsome with henough
      rw [← Option.some.inj hsome]
      exact isFirstBroken_singleton ⟨common, variations, hmem, Nat.not_le.mp henough⟩

/-- The test of the pickup. -/
theorem finds_pickupViolation :
    Finds (piece.Breaks rhythm auftakt) [.auftaktArithmeticMismatch]
      (piece.pickupViolation rhythm auftakt) := by
  unfold pickupViolation
  dsimp only
  split_ifs with hbroken
  · exact isFirstBroken_singleton hbroken
  · exact List.forall_mem_singleton.mpr hbroken

/-! ### All tests together -/

/-- The first violation among those of the tests that ask for no lengths. -/
def untimedViolation (piece : Structure) : Option Violation :=
  [piece.idViolation, piece.jumpViolation, piece.segnoViolation, piece.fineViolation,
    piece.codaViolation, piece.variationViolation].findSome? id

/-- The pickup is asked about last. -/
theorem firstViolation_eq_untimedViolation_or :
    piece.firstViolation rhythm auftakt =
      piece.untimedViolation.or (piece.pickupViolation rhythm auftakt) := by
  have hlast : [piece.pickupViolation rhythm auftakt].findSome? id =
      piece.pickupViolation rhythm auftakt := by
    cases piece.pickupViolation rhythm auftakt <;> rfl
  rw [untimedViolation, ← hlast, ← List.findSome?_append]
  rfl

/-- The tests that ask for no lengths find the first broken rule among theirs. -/
theorem finds_untimedViolation :
    Finds (piece.Breaks rhythm auftakt) checkedRules.dropLast piece.untimedViolation := by
  refine finds_findSome?_cons finds_idViolation fun _ ↦ ?_
  refine finds_findSome?_cons finds_jumpViolation fun _ ↦ ?_
  refine finds_findSome?_cons finds_segnoViolation fun hsegno ↦ ?_
  have hsegnos : piece.bars.countP (·.has .segno) ≤ 1 :=
    countP_segno_le_one (hsegno _ (by simp)) (hsegno _ (by simp))
  refine finds_findSome?_cons (finds_fineViolation hsegnos) fun hfine ↦ ?_
  have hfines : piece.bars.countP (·.has .fine) ≤ 1 := Nat.not_lt.mp (hfine .duplicatedFine (by simp))
  refine finds_findSome?_cons (finds_codaViolation hfines) fun _ ↦ ?_
  refine finds_findSome?_cons finds_variationViolation fun _ ↦ ?_
  exact List.forall_mem_nil _

/-- The first violation of a piece is of the first rule that it breaks. -/
theorem finds_firstViolation :
    Finds (piece.Breaks rhythm auftakt) checkedRules (piece.firstViolation rhythm auftakt) := by
  have hboth : [piece.untimedViolation, piece.pickupViolation rhythm auftakt].findSome? id =
      piece.firstViolation rhythm auftakt := by
    rw [firstViolation_eq_untimedViolation_or]
    cases piece.untimedViolation <;> cases piece.pickupViolation rhythm auftakt <;> rfl
  rw [← hboth]
  refine finds_findSome?_cons finds_untimedViolation fun _ ↦ ?_
  exact finds_findSome?_cons finds_pickupViolation fun _ ↦ List.forall_mem_nil _

/-- A violation of the pickup is found where the other tests find nothing. -/
theorem of_firstViolation_of_rule_eq {violation : Violation}
    (h : piece.firstViolation rhythm auftakt = some violation)
    (hrule : violation.rule = .auftaktArithmeticMismatch) :
    piece.untimedViolation = none ∧ piece.pickupViolation rhythm auftakt = some violation := by
  have hfinds := @finds_untimedViolation piece rhythm auftakt
  rw [firstViolation_eq_untimedViolation_or] at h
  cases huntimed : piece.untimedViolation with
  | none =>
    rw [huntimed, Option.none_or] at h
    exact ⟨rfl, h⟩
  | some other =>
    rw [huntimed, Option.some_or, Option.some.injEq] at h
    rw [huntimed, h] at hfinds
    obtain ⟨-, before, after, hsplit, -⟩ := hfinds
    have hmem : violation.rule ∈ checkedRules.dropLast := by simp [hsplit]
    exact absurd hrule (mem_dropLast_checkedRules_iff.mp hmem).2

/-- A piece breaks no rule on the form of a score. -/
theorem Breaks.ne_malformedStructure {rule : Rule} (h : piece.Breaks rhythm auftakt rule) :
    rule ≠ .malformedStructure := by
  rintro rfl
  exact h

/-- The first violation cannot be told just if it is that of the pickup, and the length of the first
bar or of the last is too long to be written. -/
theorem isWritable_eq_false_iff_of_firstViolation {violation : Violation}
    (h : piece.firstViolation rhythm auftakt = some violation) :
    violation.isWritable = false ↔ violation.rule = .auftaktArithmeticMismatch ∧
      (Numeral.isWritable piece.firstBar.ticks = false ∨
        Numeral.isWritable piece.lastBar.ticks = false) := by
  by_cases hrule : violation.rule = .auftaktArithmeticMismatch
  · obtain ⟨-, hpickup⟩ := of_firstViolation_of_rule_eq h hrule
    unfold pickupViolation at hpickup
    dsimp only at hpickup
    split_ifs at hpickup
    cases hpickup
    rw [and_iff_right hrule, ← Bool.and_eq_false_iff]
    simp [Violation.isWritable, Violation.quantities]
  · have hfinds := @finds_firstViolation piece rhythm auftakt
    rw [h] at hfinds
    rw [Violation.isWritable, Violation.quantities_eq_nil hfinds.1.ne_malformedStructure hrule]
    exact iff_of_false (by simp) fun hboth ↦ hrule hboth.1

/-- A piece that keeps the rules breaks none. -/
theorem KeepsRules.not_breaks (hkeeps : piece.KeepsRules rhythm auftakt) (rule : Rule) :
    ¬ piece.Breaks rhythm auftakt rule := by
  obtain ⟨hids, hjump, hsegno, hfine, hcoda, hvariations, hpickup⟩ := hkeeps
  cases rule with
  | malformedStructure => exact id
  | duplicateBarId => exact not_not.mpr hids
  | duplicatedJump => exact Nat.not_lt.mpr hjump.1
  | misplacedJump =>
    rintro ⟨p, hp, hmisplaced⟩
    exact hmisplaced (hjump.2 p hp)
  | missingSegno =>
    rintro ⟨hkind, hnone⟩
    rw [if_pos hkind] at hsegno
    omega
  | duplicatedSegno =>
    rintro ⟨hkind, hmore⟩
    rw [if_pos hkind] at hsegno
    omega
  | unexpectedSegno =>
    rintro ⟨hkind, hsome⟩
    rw [if_neg hkind] at hsegno
    omega
  | fineWithoutJump =>
    rintro ⟨hkind, hsome⟩
    rw [if_pos hkind] at hfine
    omega
  | duplicatedFine =>
    show ¬ 1 < _
    split_ifs at hfine <;> omega
  | segnoAfterFine =>
    rintro ⟨segno, fine, hs, hf, hle⟩
    exact absurd (hfine.2 segno fine hs hf) (Nat.not_lt.mpr hle)
  | codaWithoutJump =>
    rintro ⟨hkind, p, hp⟩
    rcases hcoda with ⟨hfirst, hsecond⟩ | ⟨hjumps, -⟩
    · rw [countP_eq_zero_iff] at hfirst hsecond
      exact (standsAt_or_iff.mp hp).elim (hfirst p) (hsecond p)
    · exact hjumps hkind
  | codaCountInvalid =>
    rintro ⟨⟨p, hp⟩, hunpaired⟩
    rcases hcoda with ⟨hfirst, hsecond⟩ | ⟨-, hfirst, hsecond, -⟩
    · rw [countP_eq_zero_iff] at hfirst hsecond
      exact (standsAt_or_iff.mp hp).elim (hfirst p) (hsecond p)
    · exact hunpaired ⟨hfirst, hsecond⟩
  | codaOrderInvalid =>
    rintro ⟨first, second, hf, hs, hle⟩
    rcases hcoda with ⟨hfirst, -⟩ | ⟨-, -, -, horder⟩
    · exact countP_eq_zero_iff.mp hfirst first hf
    · exact absurd (horder first second hf hs).1 (Nat.not_lt.mpr hle)
  | codaAfterFine =>
    rintro ⟨second, fine, hs, hf, hle⟩
    rcases hcoda with ⟨-, hsecond⟩ | ⟨-, hfirst, -, horder⟩
    · exact countP_eq_zero_iff.mp hsecond second hs
    · obtain ⟨first, hfirst⟩ := countP_pos_iff.mp (by rw [hfirst]; exact Nat.one_pos)
      exact absurd ((horder first second hfirst hs).2 fine hf) (Nat.not_lt.mpr hle)
  | insufficientVariations =>
    rintro ⟨common, variations, hmem, hfew⟩
    exact absurd (hvariations common variations hmem) (Nat.not_le.mpr hfew)
  | auftaktArithmeticMismatch =>
    rintro ⟨hauftakt, hkind, hlast, hsum⟩
    exact (hpickup hauftakt hkind).elim hlast hsum

/-- A piece that breaks no rule keeps them. -/
theorem keepsRules_of_not_breaks (hkept : ∀ rule, ¬ piece.Breaks rhythm auftakt rule) :
    piece.KeepsRules rhythm auftakt where
  ids := not_not.mp (hkept .duplicateBarId)
  jump := by
    refine ⟨Nat.not_lt.mp (hkept .duplicatedJump), fun p hp ↦ ?_⟩
    by_contra hmisplaced
    exact hkept .misplacedJump ⟨p, hp, hmisplaced⟩
  segno := by
    have hatMost := countP_segno_le_one (hkept .duplicatedSegno)
      (hkept .unexpectedSegno)
    split_ifs with hkind
    · by_contra hcount
      exact hkept .missingSegno ⟨hkind, by omega⟩
    · by_contra hcount
      exact hkept .unexpectedSegno ⟨hkind, by omega⟩
  fine := by
    refine ⟨?_, fun segno fine hs hf ↦ ?_⟩
    · split_ifs with hkind
      · by_contra hcount
        exact hkept .fineWithoutJump ⟨hkind, by omega⟩
      · exact Nat.not_lt.mp (hkept .duplicatedFine)
    · by_contra hlate
      exact hkept .segnoAfterFine ⟨segno, fine, hs, hf, Nat.not_lt.mp hlate⟩
  coda := by
    by_cases hsome : ∃ p, piece.StandsAt (fun bar ↦ bar.has .codaFirst || bar.has .codaSecond) p
    · right
      have hpair : piece.bars.countP (·.has .codaFirst) = 1 ∧
          piece.bars.countP (·.has .codaSecond) = 1 := by
        by_contra hunpaired
        exact hkept .codaCountInvalid ⟨hsome, hunpaired⟩
      refine ⟨fun hkind ↦ hkept .codaWithoutJump ⟨hkind, hsome⟩, hpair.1, hpair.2,
        fun first second hf hs ↦ ⟨?_, fun fine hfine ↦ ?_⟩⟩
      · by_contra hle
        exact hkept .codaOrderInvalid ⟨first, second, hf, hs, Nat.not_lt.mp hle⟩
      · by_contra hle
        exact hkept .codaAfterFine ⟨second, fine, hs, hfine, Nat.not_lt.mp hle⟩
    · left
      simp only [standsAt_or_iff, not_exists, not_or] at hsome
      exact ⟨countP_eq_zero_iff.mpr fun p ↦ (hsome p).1, countP_eq_zero_iff.mpr fun p ↦ (hsome p).2⟩
  variations := by
    intro common variations hmem
    by_contra hfew
    exact hkept .insufficientVariations ⟨common, variations, hmem, Nat.not_le.mp hfew⟩
  pickup := by
    intro hauftakt hkind
    by_contra hneither
    rw [not_or] at hneither
    exact hkept .auftaktArithmeticMismatch ⟨hauftakt, hkind, hneither⟩

/-! ### Validation -/

/-- The rule on the pickup is the only one that is broken, and the length of the first bar or of the
last is too long to be written. -/
def StopsAtLongLength (piece : Structure) (rhythm : Option Rhythm) (auftakt : Bool) : Prop :=
  (∀ rule, piece.Breaks rhythm auftakt rule ↔ rule = .auftaktArithmeticMismatch) ∧
    (Numeral.isWritable piece.firstBar.ticks = false ∨
      Numeral.isWritable piece.lastBar.ticks = false)

/-- Where the rules are kept, no more than one bar carries a first Coda, or a second. -/
theorem KeepsRules.countP_coda_le_one (hkeeps : piece.KeepsRules rhythm auftakt) :
    piece.bars.countP (·.has .codaFirst) ≤ 1 ∧ piece.bars.countP (·.has .codaSecond) ≤ 1 := by
  rcases hkeeps.coda with ⟨hfirst, hsecond⟩ | ⟨-, hfirst, hsecond, -⟩ <;> rw [hfirst, hsecond] <;>
    simp

/-- Where the rules are kept, each field of the collected index is the place of its mark. -/
theorem KeepsRules.isPlaceOf_collect (hkeeps : piece.KeepsRules rhythm auftakt) :
    piece.IsPlaceOf (·.has .segno) (MarkerIndex.collect piece).segno ∧
      piece.IsPlaceOf (·.has .fine) (MarkerIndex.collect piece).fine ∧
      piece.IsPlaceOf (·.has .codaFirst) (MarkerIndex.collect piece).codaFirst ∧
      piece.IsPlaceOf (·.has .codaSecond) (MarkerIndex.collect piece).codaSecond ∧
      piece.IsPlaceOf Bar.hasJump (MarkerIndex.collect piece).jump := by
  have hsegno : piece.bars.countP (·.has .segno) ≤ 1 := by
    rw [hkeeps.segno]
    split_ifs <;> simp
  have hfine : piece.bars.countP (·.has .fine) ≤ 1 := by
    refine Nat.le_trans hkeeps.fine.1 ?_
    split_ifs <;> simp
  have hcodas := hkeeps.countP_coda_le_one
  exact ⟨isPlaceOf_head? hsegno, isPlaceOf_head? hfine, isPlaceOf_head? hcodas.1,
    isPlaceOf_head? hcodas.2, isPlaceOf_head? hkeeps.jump.1⟩

/-- A piece without a violation is validated, with its marks collected. -/
theorem validate_eq_ok_iff {index : MarkerIndex} : piece.validate rhythm auftakt = .ok index ↔
    piece.firstViolation rhythm auftakt = none ∧ MarkerIndex.collect piece = index := by
  unfold validate
  rw [index_scanned]
  cases piece.firstViolation rhythm auftakt <;> simp

/-- A piece is refused for its first violation. -/
theorem validate_eq_error_iff {refusal : Refusal} :
    piece.validate rhythm auftakt = .error refusal ↔
      ∃ violation, piece.firstViolation rhythm auftakt = some violation ∧
        violation.refusal = refusal := by
  unfold validate
  cases piece.firstViolation rhythm auftakt <;> simp

/-- A piece has no violation just if it keeps the rules. -/
theorem firstViolation_eq_none_iff :
    piece.firstViolation rhythm auftakt = none ↔ piece.KeepsRules rhythm auftakt := by
  have hfinds := @finds_firstViolation piece rhythm auftakt
  constructor
  · intro hnone
    rw [hnone] at hfinds
    refine keepsRules_of_not_breaks fun rule hrule ↦ ?_
    exact hfinds rule (mem_checkedRules_iff.mpr hrule.ne_malformedStructure) hrule
  · intro hkeeps
    cases hanswer : piece.firstViolation rhythm auftakt with
    | none => rfl
    | some violation =>
      rw [hanswer] at hfinds
      exact absurd hfinds.1 (hkeeps.not_breaks _)

/-- A violation that is told is of the first rule that the piece breaks. -/
theorem isFirstBroken_of_validate_eq_error {violation : Violation}
    (h : piece.validate rhythm auftakt = .error (.violation violation)) :
    IsFirstBroken (piece.Breaks rhythm auftakt) checkedRules violation.rule := by
  obtain ⟨found, hfound, htold⟩ := validate_eq_error_iff.mp h
  obtain ⟨-, rfl⟩ := Violation.refusal_eq_violation_iff.mp htold
  have hfinds := @finds_firstViolation piece rhythm auftakt
  rwa [hfound] at hfinds

/-- A piece is refused with a number that is too long to be told just if it stops at a length. -/
theorem validate_eq_unwritable_iff : piece.validate rhythm auftakt = .error .unwritable ↔
    piece.StopsAtLongLength rhythm auftakt := by
  simp only [validate_eq_error_iff, Violation.refusal_eq_unwritable_iff]
  constructor
  · rintro ⟨violation, hfirst, hlong⟩
    obtain ⟨hrule, hticks⟩ := (isWritable_eq_false_iff_of_firstViolation hfirst).mp hlong
    obtain ⟨huntimed, hpickup⟩ := of_firstViolation_of_rule_eq hfirst hrule
    have hkept := @finds_untimedViolation piece rhythm auftakt
    rw [huntimed] at hkept
    have hbroken := @finds_pickupViolation piece rhythm auftakt
    rw [hpickup] at hbroken
    refine ⟨fun rule ↦ ⟨fun hrule ↦ ?_, ?_⟩, hticks⟩
    · by_contra hother
      exact hkept rule (mem_dropLast_checkedRules_iff.mpr ⟨hrule.ne_malformedStructure, hother⟩) hrule
    · rintro rfl
      exact hrule ▸ hbroken.1
  · rintro ⟨honly, hticks⟩
    have hfinds := @finds_firstViolation piece rhythm auftakt
    cases hfirst : piece.firstViolation rhythm auftakt with
    | none =>
      rw [hfirst] at hfinds
      exact absurd ((honly .auftaktArithmeticMismatch).mpr rfl) (hfinds _ (by decide))
    | some violation =>
      rw [hfirst] at hfinds
      refine ⟨violation, rfl, (isWritable_eq_false_iff_of_firstViolation hfirst).mpr ?_⟩
      exact ⟨(honly _).mp hfinds.1, hticks⟩

/-- A piece is validated just if it keeps the rules. Each field of the index that it gets is then the
position of the only bar with that mark, and is missing if there is none. Otherwise the violation is
of a rule that the piece breaks, and of the first such rule in the order of checking. It is told
unless the rule is the one on the pickup and a length in its message is too long to be written. -/
theorem validate_accepts_keepsRules (piece : Structure) (rhythm : Option Rhythm) (auftakt : Bool) :
    ((∃ index, piece.validate rhythm auftakt = .ok index) ↔ piece.KeepsRules rhythm auftakt) ∧
    (∀ index, piece.validate rhythm auftakt = .ok index →
      piece.IsPlaceOf (·.has .segno) index.segno ∧ piece.IsPlaceOf (·.has .fine) index.fine ∧
      piece.IsPlaceOf (·.has .codaFirst) index.codaFirst ∧
      piece.IsPlaceOf (·.has .codaSecond) index.codaSecond ∧
      piece.IsPlaceOf Bar.hasJump index.jump) ∧
    (∀ violation, piece.validate rhythm auftakt = .error (.violation violation) →
      IsFirstBroken (piece.Breaks rhythm auftakt) checkedRules violation.rule) ∧
    (piece.validate rhythm auftakt = .error .unwritable ↔
      piece.StopsAtLongLength rhythm auftakt) := by
  refine ⟨?_, fun index hindex ↦ ?_, fun _ ↦ isFirstBroken_of_validate_eq_error,
    validate_eq_unwritable_iff⟩
  · simp only [validate_eq_ok_iff, firstViolation_eq_none_iff, exists_and_left, exists_eq', and_true]
  · obtain ⟨hnone, rfl⟩ := validate_eq_ok_iff.mp hindex
    exact (firstViolation_eq_none_iff.mp hnone).isPlaceOf_collect

/-- A Da Capo piece of a single bar with a long number for its length. -/
def pieceOfLongBar : Structure :=
  .ofRegions ⟨.plain (.straight ⟨barOfLongLength "A", []⟩), []⟩ .daCapo

/-- With an auftakt the piece breaks the rule on the pickup, and is refused for no rule. -/
theorem validate_pieceOfLongBar : pieceOfLongBar.Breaks none true .auftaktArithmeticMismatch ∧
    pieceOfLongBar.validate none true = .error .unwritable := by
  have hbreaks : pieceOfLongBar.Breaks none true .auftaktArithmeticMismatch :=
    ⟨rfl, rfl, Nat.ne_of_gt lt_longNumber, Nat.ne_of_gt (Nat.lt_add_left _ lt_longNumber)⟩
  have hfirst : pieceOfLongBar.firstViolation none true =
      some (.pickupIncomplete longNumber longNumber 960 0) := by
    have huntimed : pieceOfLongBar.untimedViolation = none := rfl
    rw [firstViolation_eq_untimedViolation_or, huntimed, Option.none_or]
    exact if_pos hbreaks
  refine ⟨hbreaks, validate_eq_error_iff.mpr ⟨_, hfirst, ?_⟩⟩
  rw [Violation.refusal_eq_unwritable_iff, isWritable_eq_false_iff_of_firstViolation hfirst]
  exact ⟨rfl, .inl isWritable_longNumber⟩

end Structure

end ScoreRepeats
