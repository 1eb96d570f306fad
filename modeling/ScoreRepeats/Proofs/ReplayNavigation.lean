import Mathlib.Data.List.Basic
import ScoreRepeats.Resolution

/-!
# Navigation of a replay

`navigate` walks through the positions of a replay and obeys the marks of an index on its way: it
stops at Fine, and at the first Coda it goes on after the second. On positions that increase this
walk is a selection. What sounds are the positions that are not past Fine (`MarkerIndex.AllowsFine`)
and that no Coda jump passes over (`MarkerIndex.PassesOver`), in the same order
(`exists_navigate_eq_ok`). The walk comes to its end because the second Coda of a paired index is not
before the first (`MarkerIndex.HasPairedCodas`).
-/

set_option autoImplicit false
set_option relaxedAutoImplicit false

namespace ScoreRepeats

/-- Where a test that fails once fails from then on, leaving out the first positions that pass it is
leaving out all that pass it. -/
theorem dropWhile_eq_filter {test : Nat → Bool} {positions : List Nat}
    (hfails : positions.Pairwise fun p q ↦ test q = true → test p = true) :
    positions.dropWhile test = positions.filter fun p ↦ !test p := by
  induction positions with
  | nil => rfl
  | cons position rest ih =>
    obtain ⟨hposition, hrest⟩ := List.pairwise_cons.mp hfails
    cases htest : test position with
    | true =>
      rw [List.dropWhile_cons_of_pos htest, List.filter_cons_of_neg (by simp [htest])]
      exact ih hrest
    | false =>
      have hkept : ∀ p ∈ position :: rest, (!test p) = true := by
        intro p hp
        rcases List.mem_cons.mp hp with rfl | hp
        · simp [htest]
        · by_cases hpasses : test p = true
          · have hearlier := hposition p hp hpasses
            simp [htest] at hearlier
          · simpa using hpasses
      rw [List.dropWhile_cons_of_neg (by simp [htest]), List.filter_eq_self.mpr hkept]

/-- Of increasing positions, those below a bound come first. -/
theorem mem_dropWhile_iff {test : Nat → Bool} {positions : List Nat}
    (hincreasing : positions.Pairwise (· < ·))
    (hbelow : ∀ p q, p < q → test q = true → test p = true) (p : Nat) :
    p ∈ positions.dropWhile test ↔ p ∈ positions ∧ test p = false := by
  rw [dropWhile_eq_filter (hincreasing.imp fun {p q} hpq ↦ hbelow p q hpq), List.mem_filter]
  simp

namespace MarkerIndex

/-- Where there is a first Coda there is a second, and not before the first. -/
def HasPairedCodas (index : MarkerIndex) : Prop :=
  ∀ first, index.codaFirst = some first → ∃ second, index.codaSecond = some second ∧ first ≤ second

/-- A position is not past Fine. -/
def AllowsFine (index : MarkerIndex) (p : Nat) : Prop :=
  ∀ fine, index.fine = some fine → (p : Int) ≤ fine

/-- A replay that comes to the first Coda passes over a position: it lies from the first Coda up to
the second. -/
def PassesOver (index : MarkerIndex) (comesTo : Nat → Prop) (p : Nat) : Prop :=
  ∃ coda, comesTo coda ∧ index.codaFirst = some (coda : Int) ∧ coda ≤ p ∧
    ∃ second, index.codaSecond = some second ∧ (p : Int) ≤ second

end MarkerIndex

/-! ### The walk as a selection -/

variable {index : MarkerIndex} {position : Nat} {rest : List Nat}

/-- At the first Coda, the replay passes over everything up to the second. -/
theorem passesOver_cons_of_eq {second : Int} (hfirst : index.codaFirst = some (position : Int))
    (hsecond : index.codaSecond = some second) (p : Nat) :
    index.PassesOver (· ∈ position :: rest) p ↔ position ≤ p ∧ (p : Int) ≤ second := by
  constructor
  · rintro ⟨coda, -, hcoda, hle, second', hsecond', hp⟩
    rw [hfirst, Option.some.injEq, Int.natCast_inj] at hcoda
    rw [hsecond, Option.some.injEq] at hsecond'
    exact ⟨hcoda ▸ hle, hsecond' ▸ hp⟩
  · rintro ⟨hle, hp⟩
    exact ⟨position, List.mem_cons_self, hfirst, hle, second, hsecond, hp⟩

/-- A position that is not the first Coda has no part in passing over. -/
theorem passesOver_cons_of_ne (hfirst : index.codaFirst ≠ some (position : Int)) (p : Nat) :
    index.PassesOver (· ∈ position :: rest) p ↔ index.PassesOver (· ∈ rest) p := by
  constructor
  · rintro ⟨coda, hmem, hcoda, hover⟩
    rcases List.mem_cons.mp hmem with rfl | hmem
    · exact absurd hcoda hfirst
    · exact ⟨coda, hmem, hcoda, hover⟩
  · rintro ⟨coda, hmem, hcoda, hover⟩
    exact ⟨coda, List.mem_cons_of_mem _ hmem, hcoda, hover⟩

/-- A replay that comes only to later positions does not pass over an earlier one. -/
theorem not_passesOver_of_lt {comesTo : Nat → Prop} {p : Nat} (hlater : ∀ q, comesTo q → p < q) :
    ¬ index.PassesOver comesTo p := by
  rintro ⟨coda, hcomes, -, hle, -⟩
  have hlt := hlater coda hcomes
  omega

/-- A position of a replay sounds: it is not past Fine and not passed over. -/
def Sounds (index : MarkerIndex) (positions : List Nat) (p : Nat) : Prop :=
  p ∈ positions ∧ index.AllowsFine p ∧ ¬ index.PassesOver (· ∈ positions) p

/-- From the first Coda on there sounds what sounds after the second. -/
theorem sounds_cons_of_coda {second : Int} (hlater : ∀ q ∈ rest, position < q)
    (hrest : rest.Pairwise (· < ·)) (hfirst : index.codaFirst = some (position : Int))
    (hsecond : index.codaSecond = some second) (hle : (position : Int) ≤ second) (p : Nat) :
    Sounds index (position :: rest) p ↔
      Sounds index (rest.dropWhile fun later ↦ decide ((later : Int) ≤ second)) p := by
  have hdropped : ∀ q : Nat, q ∈ rest.dropWhile (fun later : Nat ↦ decide ((later : Int) ≤ second)) ↔
      q ∈ rest ∧ second < (q : Int) := by
    intro q
    rw [mem_dropWhile_iff hrest (by simp only [decide_eq_true_eq]; omega)]
    simp
  -- The first Coda itself is left out, so nothing more is passed over.
  have hnever : ¬ index.PassesOver
      (· ∈ rest.dropWhile fun later : Nat ↦ decide ((later : Int) ≤ second)) p := by
    rintro ⟨coda, hin, hcoda, -⟩
    rw [hfirst, Option.some.injEq, Int.natCast_inj] at hcoda
    have hlt := hlater coda ((hdropped coda).mp hin).1
    omega
  unfold Sounds
  rw [hdropped, passesOver_cons_of_eq hfirst hsecond, List.mem_cons]
  constructor
  · rintro ⟨hp, hfine, hover⟩
    rcases hp with rfl | hp
    · exact absurd ⟨Nat.le_refl _, hle⟩ hover
    · have hlt := hlater p hp
      exact ⟨⟨hp, by omega⟩, hfine, hnever⟩
  · rintro ⟨⟨hp, hlt⟩, hfine, -⟩
    exact ⟨.inr hp, hfine, by omega⟩

/-- Past Fine nothing sounds. -/
theorem not_sounds_of_past {fine : Int} (hlater : ∀ q ∈ rest, position < q)
    (hfine : index.fine = some fine) (hpast : fine < (position : Int)) (p : Nat) :
    ¬ Sounds index (position :: rest) p := by
  rintro ⟨hp, hallows, -⟩
  have hle := hallows fine hfine
  rcases List.mem_cons.mp hp with rfl | hp
  · omega
  · have hlt := hlater p hp
    omega

/-- From Fine on only Fine sounds. -/
theorem sounds_cons_of_fine (hlater : ∀ q ∈ rest, position < q)
    (hfirst : index.codaFirst ≠ some (position : Int)) (hfine : index.fine = some (position : Int))
    (p : Nat) : Sounds index (position :: rest) p ↔ p = position := by
  unfold Sounds
  rw [passesOver_cons_of_ne hfirst, List.mem_cons]
  constructor
  · rintro ⟨hp, hallows, -⟩
    rcases hp with rfl | hp
    · rfl
    · have hle := hallows _ hfine
      have hlt := hlater p hp
      omega
  · rintro rfl
    refine ⟨.inl rfl, fun fine hsome ↦ ?_, not_passesOver_of_lt hlater⟩
    rw [hfine, Option.some.injEq] at hsome
    exact Int.le_of_eq hsome

/-- A position that is neither the first Coda nor past Fine sounds, and then what sounds after it. -/
theorem sounds_cons_iff (hlater : ∀ q ∈ rest, position < q)
    (hfirst : index.codaFirst ≠ some (position : Int)) (hallows : index.AllowsFine position)
    (p : Nat) : Sounds index (position :: rest) p ↔ p = position ∨ Sounds index rest p := by
  unfold Sounds
  rw [passesOver_cons_of_ne hfirst, List.mem_cons]
  constructor
  · rintro ⟨rfl | hp, hsounds⟩
    · exact .inl rfl
    · exact .inr ⟨hp, hsounds⟩
  · rintro (rfl | ⟨hp, hsounds⟩)
    · exact ⟨.inl rfl, hallows, not_passesOver_of_lt hlater⟩
    · exact ⟨.inr hp, hsounds⟩

/-- The walk through increasing positions ends, and selects the positions that are not past Fine and
not passed over. -/
theorem exists_navigate_eq_ok (hpaired : index.HasPairedCodas) {positions : List Nat}
    (hincreasing : positions.Pairwise (· < ·)) :
    ∃ sounding, navigate index positions = .ok sounding ∧ sounding.Sublist positions ∧
      ∀ p, p ∈ sounding ↔
        p ∈ positions ∧ index.AllowsFine p ∧ ¬ index.PassesOver (· ∈ positions) p := by
  show ∃ sounding, _ ∧ _ ∧ ∀ p, p ∈ sounding ↔ Sounds index positions p
  fun_induction navigate index positions with
  | case1 => exact ⟨[], rfl, List.Sublist.refl _, by simp [Sounds]⟩
  | case2 position rest hcoda hnone =>
    obtain ⟨second, hsecond, -⟩ := hpaired _ hcoda
    simp [hnone] at hsecond
  | case3 position rest hcoda second hsecond hle ih =>
    obtain ⟨hlater, hrest⟩ := List.pairwise_cons.mp hincreasing
    obtain ⟨sounding, hsounding, hsublist, hmem⟩ :=
      ih (hrest.sublist (List.dropWhile_sublist _))
    refine ⟨sounding, hsounding,
      (hsublist.trans (List.dropWhile_sublist _)).trans (List.sublist_cons_self _ _), fun p ↦ ?_⟩
    rw [hmem, sounds_cons_of_coda hlater hrest hcoda hsecond hle]
  | case4 position rest hcoda second hsecond hlt =>
    obtain ⟨_, hpair, hle⟩ := hpaired _ hcoda
    rw [hsecond] at hpair
    cases hpair
    exact absurd hle hlt
  | case5 position rest hcoda hpast =>
    obtain ⟨hlater, -⟩ := List.pairwise_cons.mp hincreasing
    obtain ⟨fine, hfine, hlt⟩ : ∃ fine, index.fine = some fine ∧ fine < (position : Int) := by
      simpa [Option.any_eq_true] using hpast
    refine ⟨[], rfl, List.nil_sublist _, fun p ↦ ?_⟩
    exact iff_of_false List.not_mem_nil (not_sounds_of_past hlater hfine hlt p)
  | case6 position rest hcoda hpast hfine =>
    obtain ⟨hlater, -⟩ := List.pairwise_cons.mp hincreasing
    refine ⟨[position], rfl, (List.nil_sublist rest).cons_cons position, fun p ↦ ?_⟩
    rw [List.mem_singleton, sounds_cons_of_fine hlater hcoda hfine]
  | case7 position rest hcoda hpast hfine ih =>
    obtain ⟨hlater, hrest⟩ := List.pairwise_cons.mp hincreasing
    obtain ⟨sounding, hsounding, hsublist, hmem⟩ := ih hrest
    have hallows : index.AllowsFine position := by
      intro fine hsome
      simpa [hsome] using hpast
    refine ⟨position :: sounding, by rw [hsounding]; rfl, hsublist.cons_cons position, fun p ↦ ?_⟩
    rw [List.mem_cons, hmem, sounds_cons_iff hlater hcoda hallows]

end ScoreRepeats
