import ScoreRepeats.Proofs.PlainBars
import ScoreRepeats.Proofs.ReadingSteps
import ScoreRepeats.Proofs.SpacedTokens

/-!
# Notations written one after another

Two notations may stand in one text with blanks between them. The blanks keep the tokens of the two
apart (`tokens_append_blank_append`). What is left of a notation that was read to its end is the
drafts of its bars (`Reading.eq_start_onTopOf`), and a reading that goes on from there differs from
one of its own only by these drafts, which lie below its own ones (`Reading.Takes.onTopOf`). The mark
at the end of a repeat reaches back to the latest draft; where the second notation is read by
itself, that is never a draft of the first. So the bars of both notations are those of the first
and then those of the second (`parse_append_blank_append`).
-/

set_option autoImplicit false
set_option relaxedAutoImplicit false

namespace ScoreRepeats.Notation

/-! ### Tokens of two texts -/

/-- With blanks between two texts, the tokens are those of the first and then those of the second. -/
theorem tokens_append_blank_append {first blanks second : List Char} (hne : blanks ≠ [])
    (hblanks : ∀ char ∈ blanks, Text.isBlank char = true) :
    tokens (first ++ (blanks ++ second)) = tokens first ++ tokens second := by
  obtain ⟨blank, more, rfl⟩ := List.exists_cons_of_ne_nil hne
  rw [tokens_append (.inr ?_), tokens_blank_append hblanks]
  rintro _ ⟨⟩
  exact isWordChar_eq_false_of_isBlank (hblanks blank List.mem_cons_self)

namespace Reading

variable {defaultTicks : Int} {reading next : Reading} {token : Token} {row : List Token}
  {earlier : List Draft}

/-! ### A reading on top of another -/

/-- The same reading with the drafts of earlier bars below its own. -/
def onTopOf (reading : Reading) (earlier : List Draft) : Reading :=
  { reading with drafts := reading.drafts ++ earlier }

/-- A token that a reading takes is taken on top of earlier drafts as well, and these stay as they
are. -/
theorem Takes.onTopOf (h : Takes defaultTicks reading token next) (earlier : List Draft) :
    Takes defaultTicks (reading.onTopOf earlier) token (next.onTopOf earlier) := by
  cases h with
  | number role denotes positive => exact .number role denotes positive
  | opening role outside => exact .opening role outside
  | closing role inside => exact .closing role inside
  | repeatStart role => exact .repeatStart role
  | repeatEnd role drafts => exact .repeatEnd role (congrArg (· ++ earlier) drafts)
  | bar role read => exact .bar role read

/-- A row of tokens that a reading takes is taken on top of earlier drafts as well. -/
theorem foldlM_take_onTopOf (h : row.foldlM (take defaultTicks) reading = .ok next)
    (earlier : List Draft) :
    row.foldlM (take defaultTicks) (reading.onTopOf earlier) = .ok (next.onTopOf earlier) := by
  induction row generalizing reading with
  | nil =>
    obtain rfl := Except.ok.inj h
    rfl
  | cons token rest ih =>
    rw [List.foldlM_cons, bind_eq_ok_iff] at h
    obtain ⟨middle, hfirst, hrest⟩ := h
    rw [foldlM_cons_of_takes ((take_eq_ok_iff.mp hfirst).onTopOf earlier)]
    exact ih hrest

/-! ### Where a reading ends -/

/-- A reading that ends with bars is one at the start, on top of the drafts of these bars. -/
theorem eq_start_onTopOf {bars : List Bar} (h : reading.finish = .ok bars) :
    reading = start.onTopOf reading.drafts := by
  obtain ⟨hplace, hstarts, -⟩ := finish_eq_ok_iff.mp h
  cases reading
  cases hplace
  cases hstarts
  rfl

/-- On top of the drafts of earlier bars a reading ends with these bars before its own. -/
theorem finish_onTopOf {bars more : List Bar} (hbars : earlier.reverse = bars.map Draft.ofBar)
    (hmore : reading.finish = .ok more) :
    (reading.onTopOf earlier).finish = .ok (bars ++ more) := by
  obtain ⟨hplace, hstarts, hdrafts⟩ := finish_eq_ok_iff.mp hmore
  refine finish_eq_ok_iff.mpr ⟨hplace, hstarts, ?_⟩
  rw [onTopOf, List.reverse_append, hbars, hdrafts, List.map_append]

end Reading

/-! ### Two notations -/

/-- Two rows of tokens that describe bars describe, one after the other, the bars of both. -/
theorem barsOfTokens_append {defaultTicks : Int} {first second : List Token} {bars more : List Bar}
    (hfirst : barsOfTokens defaultTicks first = .ok bars)
    (hsecond : barsOfTokens defaultTicks second = .ok more) :
    barsOfTokens defaultTicks (first ++ second) = .ok (bars ++ more) := by
  obtain ⟨middle, hmiddle, hbars⟩ := barsOfTokens_eq_ok_iff.mp hfirst
  obtain ⟨last, hlast, hmore⟩ := barsOfTokens_eq_ok_iff.mp hsecond
  have hdrafts := (Reading.finish_eq_ok_iff.mp hbars).2.2
  refine barsOfTokens_eq_ok_iff.mpr ⟨last.onTopOf middle.drafts, ?_,
    Reading.finish_onTopOf hdrafts hmore⟩
  rw [foldlM_append_of_eq_ok hmiddle, Reading.eq_start_onTopOf hbars]
  exact Reading.foldlM_take_onTopOf hlast _

/-- Two notations that are read, with blanks of any kind between them, are read as one notation, and
its bars are those of the first and then those of the second. -/
theorem parse_append_blank_append {defaultTicks : Int} {first second blanks : String}
    {bars more : List Bar} (hpositive : 0 < defaultTicks)
    (hfirst : parse first defaultTicks = .ok bars) (hsecond : parse second defaultTicks = .ok more)
    (hne : blanks ≠ "") (hblanks : ∀ char ∈ blanks.toList, Text.isBlank char = true) :
    parse (first ++ blanks ++ second) defaultTicks = .ok (bars ++ more) := by
  have hne' : blanks.toList ≠ [] := fun hnil ↦ hne (String.toList_eq_nil_iff.mp hnil)
  rw [parse_of_pos hpositive] at hfirst hsecond
  rw [parse_of_pos hpositive, String.toList_append, String.toList_append, List.append_assoc,
    tokens_append_blank_append hne' hblanks]
  exact barsOfTokens_append hfirst hsecond

open Structure

/-- The end of the first notation is a repeat, and the second begins with a bracket. The mark in the
second belongs to its own bar. -/
theorem parse_repeat_append_ending :
    parse "|: A B :|" 960 = .ok [markedBar "A" .repeatStart, endingBar "B"] ∧
      parse "[1 C :|]" 960 = .ok [firstEndingBar "C"] ∧
      (∀ char ∈ "\n\u3000".toList, Text.isBlank char = true) ∧
      parse ("|: A B :|" ++ "\n\u3000" ++ "[1 C :|]") 960 =
        .ok [markedBar "A" .repeatStart, endingBar "B", firstEndingBar "C"] := by
  have hfirst : parse "|: A B :|" 960 = .ok [markedBar "A" .repeatStart, endingBar "B"] := by rfl
  have hsecond : parse "[1 C :|]" 960 = .ok [firstEndingBar "C"] := by rfl
  have hblanks : ∀ char ∈ "\n\u3000".toList, Text.isBlank char = true := List.all_eq_true.mp rfl
  exact ⟨hfirst, hsecond, hblanks,
    parse_append_blank_append (by decide) hfirst hsecond (by decide) hblanks⟩

/-- Where the second text is no notation of its own, its mark may reach back into the first. -/
example : parse ":|" 960 = .error .strayRepeatEnd ∧ parse "A :|" 960 = .ok [endingBar "A"] := by
  constructor <;> rfl

end ScoreRepeats.Notation
