import Mathlib.Data.List.Chain
import Mathlib.Data.List.DropRight
import Mathlib.Data.List.Nodup
import Mathlib.Data.Nat.Find
import ScoreRepeats.Bar

/-!
# Which scores have a structure

A score is grammatical (`IsGrammatical`) if it has bars, no two of them share an id, the numbered bars
that follow each other count up from one behind a bar without a number, and every repeat that is
started is over before the next one starts.

The same can be said bar by bar: each bar is admitted by those before it (`Admits`), and no repeat is
left open at the end (`HasOpenRepeat`). That the two agree is `isGrammatical_iff`.
-/

set_option autoImplicit false
set_option relaxedAutoImplicit false

namespace ScoreRepeats

variable {bars : List Bar} {bar : Bar}

/-! ### What is asked of a score -/

/-- A bar with which a repeat is over: one of a variation, or one with a repeat end. -/
def Bar.ClosesRepeat (bar : Bar) : Prop := bar.variation ≠ none ∨ bar.has .repeatEnd = true

/-- Numbered bars that follow each other, with none beside them. -/
structure IsNumberedBlock (before block after : List Bar) : Prop where
  nonempty : block ≠ []
  numbered : ∀ bar ∈ block, bar.variation ≠ none
  left : ∀ bar ∈ before.getLast?, bar.variation = none
  right : ∀ bar ∈ after.head?, bar.variation = none

/-- The numbers of a block stay or go up by one. -/
def CountsUp (block : List Bar) : Prop :=
  block.IsChain fun earlier later ↦ later.variation = earlier.variation ∨
    ∃ number, earlier.variation = some number ∧ later.variation = some (number + 1)

/-- A repeat that starts at a position is over at that bar or a later one, and no other repeat starts
until then. -/
def IsOverInTime (bars : List Bar) (p : Nat) : Prop :=
  ∃ (q : Nat) (closing : Bar), p ≤ q ∧ bars[q]? = some closing ∧ closing.ClosesRepeat ∧
    ∀ (r : Nat) (other : Bar), p < r → r ≤ q → bars[r]? = some other →
      other.has .repeatStart = false

/-- A score that can be grouped. -/
structure IsGrammatical (bars : List Bar) : Prop where
  nonempty : bars ≠ []
  distinct : (bars.map Bar.id).Nodup
  blocks : ∀ before block after, bars = before ++ block ++ after →
    IsNumberedBlock before block after →
    before ≠ [] ∧ (∀ first ∈ block.head?, first.variation = some 1) ∧ CountsUp block
  repeats : ∀ (p : Nat) (start : Bar), bars[p]? = some start → start.has .repeatStart = true →
    IsOverInTime bars p

/-! ### The same bar by bar -/

/-- A repeat was started and is not over. -/
def HasOpenRepeat (bars : List Bar) : Prop :=
  ∃ (p : Nat) (start : Bar), bars[p]? = some start ∧ start.has .repeatStart = true ∧
    ∀ (q : Nat) (closing : Bar), p ≤ q → bars[q]? = some closing → ¬ closing.ClosesRepeat

/-- A number that may come after a bar with or without a number. -/
def Continues : Option Nat → Nat → Prop
  | none, number => number = 1
  | some current, number => number = current ∨ number = current + 1

/-- A bar whose number, if it has one, continues the bar before it. -/
def ContinuesPrevious (before : List Bar) (bar : Bar) : Prop :=
  ∀ number, bar.variation = some number →
    ∃ previous, before.getLast? = some previous ∧ Continues previous.variation number

/-- A bar that may come after these bars. -/
structure Admits (before : List Bar) (bar : Bar) : Prop where
  fresh : bar.id ∉ before.map Bar.id
  numbered : ContinuesPrevious before bar
  started : bar.has .repeatStart = true → ¬ HasOpenRepeat before

/-- Something holds of each bar and those before it. -/
def EachAfter (P : List Bar → Bar → Prop) (bars : List Bar) : Prop :=
  ∀ before bar after, bars = before ++ bar :: after → P before bar

/-- The first bar that is not admitted has a new id, and a number that does not continue the bar
before it and is too long to be written. -/
def StopsAtLongNumber (bars : List Bar) : Prop :=
  ∃ before bar after number, bars = before ++ bar :: after ∧ EachAfter Admits before ∧
    bar.id ∉ before.map Bar.id ∧ ¬ ContinuesPrevious before bar ∧
    bar.variation = some number ∧ Numeral.isWritable number = false

/-- What holds of each bar after one is added holds of those before and of the new one. -/
theorem eachAfter_concat_iff {P : List Bar → Bar → Prop} :
    EachAfter P (bars ++ [bar]) ↔ EachAfter P bars ∧ P bars bar := by
  constructor
  · intro h
    refine ⟨fun before other after hsplit ↦ h before other (after ++ [bar]) ?_, h bars bar [] rfl⟩
    rw [hsplit, List.append_assoc, List.cons_append]
  · rintro ⟨hbars, hbar⟩ before other after hsplit
    rcases List.eq_nil_or_concat' after with rfl | ⟨after, last, rfl⟩
    · obtain ⟨rfl, hlast⟩ := List.append_inj' hsplit rfl
      rwa [← List.singleton_inj.mp hlast]
    · rw [← List.cons_append, ← List.append_assoc] at hsplit
      exact hbars before other after (List.append_inj' hsplit rfl).1

/-- The ids of bars differ if each differs from those before it. -/
theorem nodup_ids_iff :
    (bars.map Bar.id).Nodup ↔ EachAfter (fun before bar ↦ bar.id ∉ before.map Bar.id) bars := by
  induction bars using List.reverseRecOn with
  | nil => simp [EachAfter]
  | append_singleton bars bar ih =>
    rw [eachAfter_concat_iff, ← ih, List.map_append, List.map_singleton, List.nodup_append_comm,
      List.singleton_append, List.nodup_cons, and_comm]

/-! ### Blocks of numbered bars -/

/-- Whether a bar belongs to a variation. -/
def Bar.isNumbered (bar : Bar) : Bool := bar.variation.isSome

/-- A bar belongs to a variation if it has a number. -/
theorem Bar.isNumbered_iff : bar.isNumbered = true ↔ bar.variation ≠ none :=
  Option.isSome_iff_ne_none

/-- A numbered bar lies in a block of such bars, which reaches as far as they do. -/
theorem isNumberedBlock_around (before after : List Bar) (numbered : bar.variation ≠ none) :
    IsNumberedBlock (before.rdropWhile Bar.isNumbered)
      (before.rtakeWhile Bar.isNumbered ++ bar :: after.takeWhile Bar.isNumbered)
      (after.dropWhile Bar.isNumbered) where
  nonempty := by simp
  numbered := by
    intro other hother
    rw [List.mem_append, List.mem_cons] at hother
    rcases hother with hother | rfl | hother
    · exact Bar.isNumbered_iff.mp (List.mem_rtakeWhile_imp hother)
    · exact numbered
    · exact Bar.isNumbered_iff.mp (List.mem_takeWhile_imp hother)
  left := by
    intro other hother
    by_contra hnumbered
    have hne : before.rdropWhile Bar.isNumbered ≠ [] := by
      rintro hnil
      rw [hnil] at hother
      cases hother
    have hlast : (before.rdropWhile Bar.isNumbered).getLast hne = other :=
      Option.some.inj ((List.getLast?_eq_some_getLast hne).symm.trans hother)
    apply List.rdropWhile_last_not Bar.isNumbered before hne
    rw [hlast]
    exact Bar.isNumbered_iff.mpr hnumbered
  right := by
    intro other hother
    by_contra hnumbered
    have hstop := List.head?_dropWhile_not Bar.isNumbered after
    rw [hother] at hstop
    exact absurd (Bar.isNumbered_iff.mpr hnumbered) (by simp [hstop])

/-- Where blocks count up from one, each number continues the bar before it. -/
theorem eachAfter_continuesPrevious
    (hblocks : ∀ before block after, bars = before ++ block ++ after →
      IsNumberedBlock before block after →
      before ≠ [] ∧ (∀ first ∈ block.head?, first.variation = some 1) ∧ CountsUp block) :
    EachAfter ContinuesPrevious bars := by
  intro before bar after hsplit number hnumber
  have numbered : bar.variation ≠ none := by simp [hnumber]
  have hwhole : bars = before.rdropWhile Bar.isNumbered ++
      (before.rtakeWhile Bar.isNumbered ++ bar :: after.takeWhile Bar.isNumbered) ++
      after.dropWhile Bar.isNumbered := by
    rw [← List.append_assoc, List.rdropWhile_append_rtakeWhile, List.append_assoc,
      List.cons_append, List.takeWhile_append_dropWhile, hsplit]
  obtain ⟨hne, hfirst, hup⟩ :=
    hblocks _ _ _ hwhole (isNumberedBlock_around before after numbered)
  rcases List.eq_nil_or_concat' before with rfl | ⟨earlier, previous, rfl⟩
  · exact absurd rfl hne
  · refine ⟨previous, List.getLast?_concat, ?_⟩
    cases hprevious : previous.variation with
    | none =>
      -- The block begins with the bar itself.
      have hstop : ¬ previous.isNumbered = true := by simp [Bar.isNumbered, hprevious]
      rw [List.rtakeWhile_concat_neg _ _ _ hstop] at hfirst
      have hone : bar.variation = some 1 := hfirst bar rfl
      exact Option.some.inj (hnumber.symm.trans hone)
    | some current =>
      have hgo : previous.isNumbered = true := by simp [Bar.isNumbered, hprevious]
      rw [List.rtakeWhile_concat_pos _ _ _ hgo, CountsUp, List.append_assoc,
        List.singleton_append, List.isChain_append_cons_cons] at hup
      rcases hup.2.1 with hsame | ⟨other, hother, hnext⟩
      · left
        rw [hnumber, hprevious] at hsame
        exact Option.some.inj hsame
      · right
        rw [hnumber, Option.some.injEq] at hnext
        rw [hprevious, Option.some.injEq] at hother
        rw [hnext, hother]

/-- Where each number continues the bar before it, a block begins with one behind a bar. -/
theorem exists_getLast?_of_block {before rest after : List Bar} {first : Bar}
    (hafter : EachAfter ContinuesPrevious bars) (hsplit : bars = before ++ first :: rest ++ after)
    (hblock : IsNumberedBlock before (first :: rest) after) :
    ∃ previous, before.getLast? = some previous ∧ first.variation = some 1 := by
  obtain ⟨number, hnumber⟩ :=
    Option.ne_none_iff_exists'.mp (hblock.numbered first List.mem_cons_self)
  rw [List.append_assoc, List.cons_append] at hsplit
  obtain ⟨previous, hprevious, hcontinues⟩ := hafter before first _ hsplit number hnumber
  rw [hblock.left previous hprevious] at hcontinues
  exact ⟨previous, hprevious, by rw [hnumber, hcontinues]⟩

/-- Where each number continues the bar before it, a block counts up. -/
theorem countsUp_of_block {before block after : List Bar}
    (hafter : EachAfter ContinuesPrevious bars) (hsplit : bars = before ++ block ++ after)
    (hblock : IsNumberedBlock before block after) : CountsUp block := by
  refine List.isChain_iff_forall_rel_of_append_cons_cons.mpr ?_
  rintro earlier later left right rfl
  obtain ⟨current, hcurrent⟩ := Option.ne_none_iff_exists'.mp (hblock.numbered earlier (by simp))
  obtain ⟨number, hnumber⟩ := Option.ne_none_iff_exists'.mp (hblock.numbered later (by simp))
  obtain ⟨previous, hprevious, hcontinues⟩ :=
    hafter (before ++ left ++ [earlier]) later (right ++ after) (by simp [hsplit]) number hnumber
  rw [List.getLast?_concat, Option.some.injEq] at hprevious
  rw [← hprevious, hcurrent] at hcontinues
  rcases hcontinues with rfl | rfl
  · exact .inl (hnumber.trans hcurrent.symm)
  · exact .inr ⟨current, hcurrent, hnumber⟩

/-- Blocks count up from one behind a bar without a number just if each number continues the bar
before it. -/
theorem blocks_iff :
    (∀ before block after, bars = before ++ block ++ after → IsNumberedBlock before block after →
      before ≠ [] ∧ (∀ first ∈ block.head?, first.variation = some 1) ∧ CountsUp block) ↔
    EachAfter ContinuesPrevious bars := by
  constructor
  · exact eachAfter_continuesPrevious
  · intro hafter before block after hsplit hblock
    obtain ⟨first, rest, rfl⟩ := List.exists_cons_of_ne_nil hblock.nonempty
    obtain ⟨previous, hprevious, hone⟩ := exists_getLast?_of_block hafter hsplit hblock
    refine ⟨?_, ?_, countsUp_of_block hafter hsplit hblock⟩
    · rintro rfl
      cases hprevious
    · rintro other ⟨⟩
      exact hone

/-! ### Repeats -/

/-- After one more bar a repeat is open if the bar closes none and starts one or leaves one open. -/
theorem hasOpenRepeat_concat_iff : HasOpenRepeat (bars ++ [bar]) ↔
    ¬ bar.ClosesRepeat ∧ (bar.has .repeatStart = true ∨ HasOpenRepeat bars) := by
  constructor
  · rintro ⟨p, start, hstart, hstarted, hopen⟩
    have hp : p < (bars ++ [bar]).length := (List.getElem?_eq_some_iff.mp hstart).1
    rw [List.length_append, List.length_singleton] at hp
    refine ⟨hopen bars.length bar (by omega) List.getElem?_concat_length, ?_⟩
    rcases Nat.lt_or_ge p bars.length with hlt | hge
    · right
      rw [List.getElem?_append_left hlt] at hstart
      refine ⟨p, start, hstart, hstarted, fun q closing hq hclosing ↦ hopen q closing hq ?_⟩
      rw [List.getElem?_append_left (List.getElem?_eq_some_iff.mp hclosing).1, hclosing]
    · left
      obtain rfl : p = bars.length := by omega
      rw [List.getElem?_concat_length, Option.some.injEq] at hstart
      rwa [hstart]
  · rintro ⟨hcloses, hstarted | ⟨p, start, hstart, hstarted, hopen⟩⟩
    · refine ⟨bars.length, bar, List.getElem?_concat_length, hstarted, ?_⟩
      intro q closing hq hclosing
      rw [List.getElem?_append_right hq, List.getElem?_singleton] at hclosing
      split_ifs at hclosing
      rwa [← Option.some.inj hclosing]
    · have hp : p < bars.length := (List.getElem?_eq_some_iff.mp hstart).1
      refine ⟨p, start, by rw [List.getElem?_append_left hp, hstart], hstarted, ?_⟩
      intro q closing hq hclosing
      rcases Nat.lt_or_ge q bars.length with hlt | hge
      · rw [List.getElem?_append_left hlt] at hclosing
        exact hopen q closing hq hclosing
      · rw [List.getElem?_append_right hge, List.getElem?_singleton] at hclosing
        split_ifs at hclosing
        rwa [← Option.some.inj hclosing]

/-- Every repeat is over in time just if none starts while another is open and none is left open. -/
theorem repeats_iff :
    (∀ (p : Nat) (start : Bar), bars[p]? = some start → start.has .repeatStart = true →
      IsOverInTime bars p) ↔
    EachAfter (fun before bar ↦ bar.has .repeatStart = true → ¬ HasOpenRepeat before) bars ∧
      ¬ HasOpenRepeat bars := by
  constructor
  · intro hrepeats
    constructor
    · rintro before other after rfl hother ⟨p, start, hstart, hstarted, hopen⟩
      have hp : p < before.length := (List.getElem?_eq_some_iff.mp hstart).1
      obtain ⟨q, closing, hpq, hclosing, hcloses, hnone⟩ :=
        hrepeats p start (by rw [List.getElem?_append_left hp, hstart]) hstarted
      rcases Nat.lt_or_ge q before.length with hlt | hge
      · rw [List.getElem?_append_left hlt] at hclosing
        exact hopen q closing hpq hclosing hcloses
      · have hlate := hnone before.length other hp hge (by simp)
        simp [hlate] at hother
    · rintro ⟨p, start, hstart, hstarted, hopen⟩
      obtain ⟨q, closing, hpq, hclosing, hcloses, -⟩ := hrepeats p start hstart hstarted
      exact hopen q closing hpq hclosing hcloses
  · rintro ⟨hafter, hopen⟩ p start hstart hstarted
    have hexists : ∃ q, p ≤ q ∧ ∃ closing, bars[q]? = some closing ∧ closing.ClosesRepeat := by
      by_contra hnone
      refine hopen ⟨p, start, hstart, hstarted, fun q closing hq hclosing hcloses ↦ ?_⟩
      exact hnone ⟨q, hq, closing, hclosing, hcloses⟩
    -- The first closing bar will do: a repeat that started before it would find this one open.
    classical
    obtain ⟨hpq, closing, hclosing, hcloses⟩ := Nat.find_spec hexists
    refine ⟨Nat.find hexists, closing, hpq, hclosing, hcloses, fun r other hpr hrq hother ↦ ?_⟩
    by_contra hstarts
    rw [Bool.not_eq_false] at hstarts
    obtain ⟨hr, hget⟩ := List.getElem?_eq_some_iff.mp hother
    have hsplit : bars = bars.take r ++ other :: bars.drop (r + 1) := by
      rw [← hget, List.getElem_cons_drop, List.take_append_drop]
    refine hafter _ other _ hsplit hstarts ⟨p, start, ?_, hstarted, ?_⟩
    · rw [List.getElem?_take_of_lt hpr, hstart]
    · intro q closing hq hclosing hcloses
      have hqr : q < r := by
        have hlength := (List.getElem?_eq_some_iff.mp hclosing).1
        rw [List.length_take] at hlength
        omega
      rw [List.getElem?_take_of_lt hqr] at hclosing
      exact Nat.find_min hexists (by omega) ⟨hq, closing, hclosing, hcloses⟩

/-- A score is grammatical just if it has bars, each is admitted by those before it, and no repeat is
left open. -/
theorem isGrammatical_iff :
    IsGrammatical bars ↔ bars ≠ [] ∧ EachAfter Admits bars ∧ ¬ HasOpenRepeat bars := by
  constructor
  · rintro ⟨hne, hdistinct, hblocks, hrepeats⟩
    rw [nodup_ids_iff] at hdistinct
    rw [blocks_iff] at hblocks
    rw [repeats_iff] at hrepeats
    exact ⟨hne, fun before bar after hsplit ↦ ⟨hdistinct before bar after hsplit,
      hblocks before bar after hsplit, hrepeats.1 before bar after hsplit⟩, hrepeats.2⟩
  · rintro ⟨hne, hafter, hopen⟩
    refine ⟨hne, nodup_ids_iff.mpr ?_, blocks_iff.mpr ?_, repeats_iff.mpr ⟨?_, hopen⟩⟩
    · exact fun before bar after hsplit ↦ (hafter before bar after hsplit).fresh
    · exact fun before bar after hsplit ↦ (hafter before bar after hsplit).numbered
    · exact fun before bar after hsplit ↦ (hafter before bar after hsplit).started

end ScoreRepeats
