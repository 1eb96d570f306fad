import Mathlib.Data.List.Induction
import ScoreRepeats.Proofs.PlainBars
import ScoreRepeats.Proofs.ReadingSteps
import ScoreRepeats.Proofs.SpacedTokens

/-!
# The grammar of the bar notation

Which notations are read (`IsGrammatical`), and what each bar of them is (`IsDraftAt`), is said of
the places of the tokens, without a reading that goes through them. A reading keeps to this
description (`Follows`): of the tokens before it, it remembers the group around the next place,
whether a repeat start is waiting for a bar, and the drafts of the bars. Hence a notation is read
just if its tokens are grammatical, and then as described (`parse_accepts_isGrammatical`).
-/

set_option autoImplicit false
set_option relaxedAutoImplicit false

namespace ScoreRepeats.Notation

open Structure

/-! ### What is described -/

/-- The draft of the bar at a place: it has what its token spells, starts a repeat if that is marked
between the bar before and this one, ends one if that is marked between this and the next bar, and
is in the variation of the brackets around it. -/
def IsDraftAt (row : List Token) (defaultTicks : Int) (p : Nat) (draft : Draft) : Prop :=
  ∃ spelling : Spelling, roleAt? row p = some .bar ∧ row[p]? = some spelling.token ∧
    spelling.IsReadable ∧
    draft.IsReadFrom spelling defaultTicks (∃ mark, MarksNext row mark p)
      (∃ mark, MarksPrevious row p mark) ∧
    ∀ number, draft.variation = some number ↔ ∃ opened, Encloses row number opened p

/-- A row of tokens that describes bars. -/
structure IsGrammatical (row : List Token) (defaultTicks : Int) : Prop where
  /-- An opened bracket has a number and is closed before another is opened. -/
  opened : ∀ opened, roleAt? row opened = some .opening →
    ∃ number p, Encloses row number opened p ∧ roleAt? row p = some .closing
  /-- A closing bracket closes a group. -/
  closed : ∀ p, roleAt? row p = some .closing → ∃ number opened, Encloses row number opened p
  /-- A repeat ends with a bar. -/
  ended : ∀ mark, roleAt? row mark = some .repeatEnd → ∃ p < mark, roleAt? row p = some .bar
  /-- A repeat starts with a bar. -/
  started : ∀ mark, roleAt? row mark = some .repeatStart → ∃ p > mark, roleAt? row p = some .bar
  /-- The token of a bar makes sense. -/
  spelled : ∀ p, roleAt? row p = some .bar →
    ∃ spelling : Spelling, row[p]? = some spelling.token ∧ spelling.IsReadable
  /-- What is put together is a bar. -/
  accepted : ∀ p draft, IsDraftAt row defaultTicks p draft →
    ∃ bar, Bar.ofMarkers draft.id draft.ticks draft.markers draft.variation = .ok bar

variable {row before after : List Token} {token : Token} {defaultTicks number : Int}
  {draft : Draft} {p : Nat}

/-- A bar has one draft. -/
theorem IsDraftAt.unique {other : Draft} (h : IsDraftAt row defaultTicks p draft)
    (hother : IsDraftAt row defaultTicks p other) : draft = other := by
  obtain ⟨spelling, -, hspelling, hreadable, hfrom, hvariation⟩ := h
  obtain ⟨again, -, hagain, hreadable', hfrom', hvariation'⟩ := hother
  obtain rfl : spelling = again :=
    hreadable.plain.eq_of_token_eq hreadable'.plain (Option.some.inj (hspelling.symm.trans hagain))
  refine hfrom.unique hfrom' (Option.ext fun number ↦ ?_)
  rw [hvariation, hvariation']

/-! ### What a reading remembers -/

/-- What a reading knows about brackets after these tokens. -/
structure FollowsBrackets (row : List Token) (place : Place) : Prop where
  /-- It waits for a number behind an opening bracket, however that is written. -/
  last : place = .afterBracket ↔ row.getLast? = some ['[']
  /-- Such a bracket was no number itself. -/
  fresh : place = .afterBracket → ∃ opened, opened + 1 = row.length ∧
    roleAt? row opened = some .opening
  /-- It is inside the group around the next place. -/
  enclosed : ∀ number, place = .inside number ↔ ∃ opened, Encloses row number opened row.length
  /-- An opened bracket waits for its number, or is still open, or was closed. -/
  opened : ∀ opened, roleAt? row opened = some .opening →
    opened + 1 = row.length ∨ (∃ number, Encloses row number opened row.length) ∨
      ∃ number p, Encloses row number opened p ∧ roleAt? row p = some .closing
  /-- A closing bracket closed a group. -/
  closed : ∀ p, roleAt? row p = some .closing → ∃ number opened, Encloses row number opened p

/-- What a reading has to show for these tokens. -/
structure Follows (row : List Token) (defaultTicks : Int) (reading : Reading) : Prop where
  brackets : FollowsBrackets row reading.place
  /-- A repeat start is waiting if it is marked for a bar at the next place. -/
  starts : reading.startsRepeat = true ↔ ∃ mark, MarksNext row mark row.length
  /-- The drafts are those of the bars, with the latest first. -/
  drafts : List.Forall₂ (IsDraftAt row defaultTicks) (barPlaces row).reverse reading.drafts
  ended : ∀ mark, roleAt? row mark = some .repeatEnd → ∃ p < mark, roleAt? row p = some .bar

variable {reading next : Reading}

/-- A reading sees the role of the next token. -/
theorem FollowsBrackets.role_eq (h : FollowsBrackets row reading.place) :
    reading.role token = Role.after row.getLast? token := by
  rw [Reading.role, Role.after]
  simp only [h.last]

/-- A number does not look like a bracket. -/
theorem Denotes.ne_bracket (h : Denotes token number) : token ≠ ['['] := by
  rintro rfl
  exact absurd h.isDigits (by decide)

/-- Only after an opening bracket does the last token open a group. -/
theorem FollowsBrackets.ne_opening {place : Place} (h : FollowsBrackets row place)
    (hplace : place ≠ .afterBracket) (hlast : p + 1 = row.length) :
    roleAt? row p ≠ some .opening := by
  intro hopening
  have hp := getElem?_of_opening hopening
  refine hplace (h.last.mpr ?_)
  rw [List.getLast?_eq_getElem?, ← hlast, Nat.add_sub_cancel, hp]

/-- Behind a token that opens no group, the group around is the one before it, unless the token is a
bracket. -/
theorem FollowsBrackets.encloses_behind_iff {place : Place} {opened : Nat}
    (h : FollowsBrackets row place) (hplace : place ≠ .afterBracket) :
    Encloses (row ++ [token]) number opened (row.length + 1) ↔
      Encloses row number opened row.length ∧ Role.after row.getLast? token ≠ .opening ∧
        Role.after row.getLast? token ≠ .closing := by
  rw [encloses_concat_iff, or_iff_left]
  rintro ⟨hfresh, hopening, -⟩
  exact h.ne_opening hplace hfresh hopening

/-- A group stays closed. -/
theorem closed_append_left {opened : Nat} (hencloses : Encloses row number opened p)
    (hclosing : roleAt? row p = some .closing) (after : List Token) :
    Encloses (row ++ after) number opened p ∧ roleAt? (row ++ after) p = some .closing := by
  have hlt := lt_length_of_roleAt? hclosing
  rw [encloses_append_left (Nat.le_of_lt hlt), roleAt?_append_left hlt]
  exact ⟨hencloses, hclosing⟩

/-- An opened bracket is around the next place or closed, and stays closed. -/
theorem FollowsBrackets.encloses_or_closed {place : Place} {opened : Nat}
    (h : FollowsBrackets row place) (hplace : place ≠ .afterBracket)
    (hopened : roleAt? row opened = some .opening) (after : List Token) :
    (∃ number, Encloses row number opened row.length) ∨
      ∃ number p, Encloses (row ++ after) number opened p ∧
        roleAt? (row ++ after) p = some .closing := by
  rcases h.opened opened hopened with hfresh | hopen | ⟨number, p, hencloses, hclosing⟩
  · exact absurd hopened (h.ne_opening hplace hfresh)
  · exact .inl hopen
  · exact .inr ⟨number, p, closed_append_left hencloses hclosing after⟩

/-- A token that opens nothing, and follows no opening bracket, is none itself. -/
theorem ne_bracket_of_after (hlast : row.getLast? ≠ some ['['])
    (hrole : Role.after row.getLast? token ≠ .opening) : token ≠ ['['] := by
  rintro rfl
  rw [Role.after, if_neg hlast] at hrole
  exact hrole rfl

/-- Closing brackets close groups if the last one does. -/
theorem FollowsBrackets.closed_concat {place : Place} (h : FollowsBrackets row place)
    (hlast : Role.after row.getLast? token = .closing →
      ∃ number opened, Encloses row number opened row.length) :
    ∀ p, roleAt? (row ++ [token]) p = some .closing →
      ∃ number opened, Encloses (row ++ [token]) number opened p := by
  intro p hp
  rcases roleAt?_concat_iff.mp hp with hclosing | ⟨rfl, hrole⟩
  · obtain ⟨number, opened, hencloses⟩ := h.closed p hclosing
    exact ⟨number, opened, (closed_append_left hencloses hclosing _).1⟩
  · obtain ⟨number, opened, hencloses⟩ := hlast hrole
    exact ⟨number, opened, (encloses_append_left (Nat.le_refl _)).mpr hencloses⟩

/-- A number opens the group that its bracket announced. -/
theorem FollowsBrackets.concat_number (h : FollowsBrackets row .afterBracket)
    (hdenotes : Denotes token number) (hpositive : 1 ≤ number) :
    FollowsBrackets (row ++ [token]) (.inside number) := by
  obtain ⟨fresh, hfresh, hopening⟩ := h.fresh rfl
  have hrole : Role.after row.getLast? token = .number :=
    after_eq_number_of_opening hopening hfresh
  have hnone : ∀ other opened, ¬ Encloses row other opened row.length := by
    intro other opened hother
    cases (h.enclosed other).mpr ⟨opened, hother⟩
  have hgroup : Encloses (row ++ [token]) number fresh (row.length + 1) :=
    encloses_concat_iff.mpr (.inr ⟨hfresh, hopening, hdenotes, hpositive⟩)
  constructor
  · simpa using hdenotes.ne_bracket
  · rintro ⟨⟩
  · intro other
    rw [List.length_append, List.length_singleton]
    constructor
    · rintro ⟨⟩
      exact ⟨fresh, hgroup⟩
    · rintro ⟨opened, hencloses⟩
      rw [(hgroup.unique hencloses).2]
  · intro opened hopened
    rw [List.length_append, List.length_singleton]
    have hold := (roleAt?_concat_iff.mp hopened).resolve_right (by simp [hrole])
    rcases h.opened opened hold with hlast | ⟨other, hother⟩ | ⟨other, p, hencloses, hclosing⟩
    · obtain rfl : opened = fresh := by omega
      exact .inr (.inl ⟨number, hgroup⟩)
    · exact absurd hother (hnone other opened)
    · exact .inr (.inr ⟨other, p, closed_append_left hencloses hclosing _⟩)
  · exact h.closed_concat (by simp [hrole])

/-- An opening bracket announces a group. -/
theorem FollowsBrackets.concat_opening (h : FollowsBrackets row .outside)
    (hrole : Role.after row.getLast? token = .opening) :
    FollowsBrackets (row ++ [token]) .afterBracket := by
  have hlast : roleAt? (row ++ [token]) row.length = some .opening := by
    rw [roleAt?_append_right, hrole]
  constructor
  · have htoken := getElem?_of_opening hlast
    rw [List.getElem?_concat_length] at htoken
    simpa using htoken
  · exact fun _ ↦ ⟨row.length, by simp, hlast⟩
  · intro number
    rw [List.length_append, List.length_singleton]
    constructor
    · rintro ⟨⟩
    · rintro ⟨opened, hencloses⟩
      exact absurd hrole ((h.encloses_behind_iff (by decide)).mp hencloses).2.1
  · intro opened hopened
    rw [List.length_append, List.length_singleton]
    rcases roleAt?_concat_iff.mp hopened with hold | ⟨rfl, -⟩
    · rcases h.encloses_or_closed (by decide) hold [token] with ⟨other, hother⟩ | hclosed
      · cases (h.enclosed other).mpr ⟨opened, hother⟩
      · exact .inr (.inr hclosed)
    · exact .inl rfl
  · exact h.closed_concat (by simp [hrole])

/-- A closing bracket closes the group around it. -/
theorem FollowsBrackets.concat_closing (h : FollowsBrackets row (.inside number))
    (hrole : Role.after row.getLast? token = .closing) :
    FollowsBrackets (row ++ [token]) .outside := by
  have hlast : roleAt? (row ++ [token]) row.length = some .closing := by
    rw [roleAt?_append_right, hrole]
  constructor
  · have hne : token ≠ ['['] :=
      ne_bracket_of_after (fun hopen ↦ nomatch h.last.mpr hopen) (by rw [hrole]; decide)
    simpa using hne
  · rintro ⟨⟩
  · intro other
    rw [List.length_append, List.length_singleton]
    constructor
    · rintro ⟨⟩
    · rintro ⟨opened, hencloses⟩
      exact absurd hrole ((h.encloses_behind_iff (by simp)).mp hencloses).2.2
  · intro opened hopened
    have hold := (roleAt?_concat_iff.mp hopened).resolve_right (by simp [hrole])
    rcases h.encloses_or_closed (by simp) hold [token] with ⟨other, hother⟩ | hclosed
    · refine .inr (.inr ⟨other, row.length, ?_, hlast⟩)
      exact (encloses_append_left (Nat.le_refl _)).mpr hother
    · exact .inr (.inr hclosed)
  · exact h.closed_concat fun _ ↦ ⟨number, (h.enclosed number).mp rfl⟩

/-- Other tokens leave the brackets as they are. -/
theorem FollowsBrackets.concat_other {place : Place} (h : FollowsBrackets row place)
    (hplace : place ≠ .afterBracket) (hopening : Role.after row.getLast? token ≠ .opening)
    (hclosing : Role.after row.getLast? token ≠ .closing) :
    FollowsBrackets (row ++ [token]) place := by
  constructor
  · have hne := ne_bracket_of_after (fun hlast ↦ hplace (h.last.mpr hlast)) hopening
    simpa [hplace] using hne
  · exact fun hafter ↦ absurd hafter hplace
  · intro number
    rw [List.length_append, List.length_singleton, h.enclosed]
    refine exists_congr fun opened ↦ ?_
    rw [h.encloses_behind_iff hplace]
    exact (and_iff_left ⟨hopening, hclosing⟩).symm
  · intro opened hopened
    rw [List.length_append, List.length_singleton]
    have hold := (roleAt?_concat_iff.mp hopened).resolve_right fun hlast ↦ hopening hlast.2
    rcases h.encloses_or_closed hplace hold [token] with ⟨other, hother⟩ | hclosed
    · exact .inr (.inl ⟨other, (h.encloses_behind_iff hplace).mpr ⟨hother, hopening, hclosing⟩⟩)
    · exact .inr (.inr hclosed)
  · exact h.closed_concat fun hlast ↦ absurd hlast hclosing

/-- A reading that takes a token goes on to know the brackets. -/
theorem FollowsBrackets.concat (h : FollowsBrackets row reading.place)
    (htakes : reading.Takes defaultTicks token next) :
    FollowsBrackets (row ++ [token]) next.place := by
  have hrole : reading.role token = Role.after row.getLast? token := h.role_eq
  -- A token that has a role by itself does not follow an opening bracket.
  have hplace : Role.after row.getLast? token ≠ .number → reading.place ≠ .afterBracket := by
    rw [← hrole, Ne, Ne, Reading.role_eq_number_iff]
    exact id
  cases htakes with
  | number role denotes positive =>
    rw [Reading.role_eq_number_iff.mp role] at h
    exact h.concat_number denotes positive
  | opening role outside =>
    rw [outside] at h
    exact h.concat_opening (hrole.symm.trans role)
  | closing role inside =>
    rw [inside] at h
    exact h.concat_closing (hrole.symm.trans role)
  | repeatStart role =>
    rw [role] at hrole
    exact h.concat_other (hplace (by simp [← hrole])) (by simp [← hrole]) (by simp [← hrole])
  | repeatEnd role =>
    rw [role] at hrole
    exact h.concat_other (hplace (by simp [← hrole])) (by simp [← hrole]) (by simp [← hrole])
  | bar role =>
    rw [role] at hrole
    exact h.concat_other (hplace (by simp [← hrole])) (by simp [← hrole]) (by simp [← hrole])

/-! ### The drafts of a reading -/

/-- A draft stays as it is behind one more token that does not mark it as the end of a repeat. -/
theorem IsDraftAt.concat (h : IsDraftAt row defaultTicks p draft)
    (hrole : Role.after row.getLast? token = .repeatEnd → ¬ Lacks row .bar p row.length) :
    IsDraftAt (row ++ [token]) defaultTicks p draft := by
  obtain ⟨spelling, hbar, hspelling, hreadable, hfrom, hvariation⟩ := h
  have hlt := lt_length_of_roleAt? hbar
  refine ⟨spelling, ?_, ?_, hreadable, hfrom.congr ?_ ?_, fun number ↦ ?_⟩
  · rwa [roleAt?_append_left hlt]
  · rwa [List.getElem?_append_left hlt]
  · simp only [marksNext_append_left (Nat.le_of_lt hlt)]
  · rw [exists_marksPrevious_concat_iff hlt]
    exact ⟨.inl, fun hmark ↦ hmark.resolve_right fun hlast ↦ hrole hlast.1 hlast.2⟩
  · simp only [hvariation, encloses_append_left (Nat.le_of_lt hlt)]

/-- The draft of the last bar before the end of a repeat gets its mark. -/
theorem IsDraftAt.concat_repeatEnd (h : IsDraftAt row defaultTicks p draft)
    (hrole : Role.after row.getLast? token = .repeatEnd) (hlast : Lacks row .bar p row.length) :
    IsDraftAt (row ++ [token]) defaultTicks p (draft.mark .repeatEnd) := by
  obtain ⟨spelling, hbar, hspelling, hreadable, hfrom, hvariation⟩ := h
  have hlt := lt_length_of_roleAt? hbar
  refine ⟨spelling, ?_, ?_, hreadable, hfrom.mark_repeatEnd.congr ?_ ?_, fun number ↦ ?_⟩
  · rwa [roleAt?_append_left hlt]
  · rwa [List.getElem?_append_left hlt]
  · simp only [marksNext_append_left (Nat.le_of_lt hlt)]
  · rw [exists_marksPrevious_concat_iff hlt]
    exact iff_of_true trivial (.inr ⟨hrole, hlast⟩)
  · simp only [encloses_append_left (Nat.le_of_lt hlt)]
    exact hvariation number

/-- The draft that a reading makes of a bar. -/
theorem Follows.isDraftAt_concat (h : Follows row defaultTicks reading)
    (hrole : Role.after row.getLast? token = .bar)
    (hread : Draft.ofToken token defaultTicks reading.place.variation = .ok draft) :
    IsDraftAt (row ++ [token]) defaultTicks row.length
      (if reading.startsRepeat then draft.mark .repeatStart else draft) := by
  obtain ⟨spelling, rfl, hreadable, hfrom, hvariation⟩ := Draft.ofToken_eq_ok_iff.mp hread
  refine ⟨spelling, ?_, List.getElem?_concat_length, hreadable,
    (hfrom.mark_repeatStart reading.startsRepeat).congr ?_ ?_, fun number ↦ ?_⟩
  · rw [roleAt?_append_right, hrole]
  · simp only [marksNext_append_left (Nat.le_refl _)]
    exact h.starts
  · refine iff_of_false id ?_
    rintro ⟨mark, hmarked, hlt, -⟩
    have hlength := lt_length_of_roleAt? hmarked
    rw [List.length_append, List.length_singleton] at hlength
    omega
  · have hplace : (if reading.startsRepeat then draft.mark .repeatStart else draft).variation =
        reading.place.variation := by
      rw [← hvariation]
      split_ifs <;> rfl
    simp only [hplace, encloses_append_left (Nat.le_refl _)]
    rw [← h.brackets.enclosed]
    cases reading.place <;> simp [Place.variation]

/-- No bar follows the last one, and one follows each of the others. -/
theorem lacks_of_barPlaces {rest : List Nat} (h : (barPlaces row).reverse = p :: rest) :
    roleAt? row p = some .bar ∧ Lacks row .bar p row.length ∧
      ∀ q ∈ rest, ¬ Lacks row .bar q row.length := by
  have hmem : ∀ q, roleAt? row q = some .bar ↔ q ∈ p :: rest := fun q ↦ by
    rw [← h, List.mem_reverse, mem_barPlaces_iff]
  have hpairwise : (p :: rest).Pairwise (· > ·) := by
    rw [← h, List.pairwise_reverse]
    exact pairwise_barPlaces
  rw [List.pairwise_cons] at hpairwise
  have hbar := (hmem p).mpr List.mem_cons_self
  refine ⟨hbar, fun r hpr _ hr ↦ ?_, fun q hq hlacks ↦ ?_⟩
  · rcases List.mem_cons.mp ((hmem r).mp hr) with rfl | hrest
    · exact Nat.lt_irrefl _ hpr
    · exact Nat.lt_asymm hpr (hpairwise.1 r hrest)
  · exact hlacks p (hpairwise.1 q hq) (lt_length_of_roleAt? hbar) hbar

/-- A reading that takes a token has drafts for all bars up to it. -/
theorem Follows.drafts_concat (h : Follows row defaultTicks reading)
    (htakes : reading.Takes defaultTicks token next) :
    List.Forall₂ (IsDraftAt (row ++ [token]) defaultTicks) (barPlaces (row ++ [token])).reverse
      next.drafts := by
  have hrole : reading.role token = Role.after row.getLast? token := h.brackets.role_eq
  have hother : Role.after row.getLast? token ≠ .bar →
      Role.after row.getLast? token ≠ .repeatEnd →
      List.Forall₂ (IsDraftAt (row ++ [token]) defaultTicks) (barPlaces (row ++ [token])).reverse
        reading.drafts := fun hbar hend ↦ by
    rw [barPlaces_concat, if_neg hbar, List.append_nil]
    exact h.drafts.imp fun _ _ hdraft ↦ hdraft.concat fun hlast ↦ absurd hlast hend
  cases htakes with
  | number role => exact hother (by simp [← hrole, role]) (by simp [← hrole, role])
  | opening role => exact hother (by simp [← hrole, role]) (by simp [← hrole, role])
  | closing role => exact hother (by simp [← hrole, role]) (by simp [← hrole, role])
  | repeatStart role => exact hother (by simp [← hrole, role]) (by simp [← hrole, role])
  | @repeatEnd latest earlier role drafts =>
    rw [role] at hrole
    have hdrafts := h.drafts
    rw [drafts] at hdrafts
    obtain ⟨p, rest, hlatest, hearlier, hplaces⟩ := List.forall₂_cons_right_iff.mp hdrafts
    obtain ⟨-, hlast, hfollowed⟩ := lacks_of_barPlaces hplaces
    rw [barPlaces_concat, if_neg (by simp [← hrole]), List.append_nil, hplaces]
    refine .cons (hlatest.concat_repeatEnd hrole.symm hlast) ?_
    have hboth := (List.forall₂_and_left _ _).mpr ⟨hfollowed, hearlier⟩
    exact hboth.imp fun _ _ hdraft ↦ hdraft.2.concat fun _ ↦ hdraft.1
  | bar role read =>
    rw [role] at hrole
    rw [barPlaces_concat, if_pos hrole.symm, List.reverse_append]
    have hnot : Role.after row.getLast? token ≠ .repeatEnd := by
      rw [← hrole]
      decide
    refine .cons (h.isDraftAt_concat hrole.symm read) ?_
    exact h.drafts.imp fun _ _ hdraft ↦ hdraft.concat fun hlast ↦ absurd hlast hnot

/-- A reading that takes a token goes on to follow the tokens. -/
theorem Follows.concat (h : Follows row defaultTicks reading)
    (htakes : reading.Takes defaultTicks token next) :
    Follows (row ++ [token]) defaultTicks next where
  brackets := h.brackets.concat htakes
  starts := by
    have hrole : reading.role token = Role.after row.getLast? token := h.brackets.role_eq
    rw [List.length_append, List.length_singleton, exists_marksNext_concat_iff, ← h.starts, ← hrole]
    cases htakes with
    | number role => simp [role]
    | opening role => simp [role]
    | closing role => simp [role]
    | repeatStart role => simp [role]
    | repeatEnd role => simp [role]
    | bar role => simp [role]
  drafts := h.drafts_concat htakes
  ended := by
    have hrole : reading.role token = Role.after row.getLast? token := h.brackets.role_eq
    intro mark hmark
    simp only [roleAt?_concat_iff]
    rcases roleAt?_concat_iff.mp hmark with hold | ⟨rfl, hend⟩
    · obtain ⟨p, hlt, hbar⟩ := h.ended mark hold
      exact ⟨p, hlt, .inl hbar⟩
    · have hdrafts := htakes.drafts_ne_nil (hrole.trans hend)
      obtain ⟨latest, hlatest⟩ := List.exists_mem_of_ne_nil _ hdrafts
      obtain ⟨p, hp, -⟩ := exists_mem_of_forall₂ h.drafts.flip hlatest
      have hbar := mem_barPlaces_iff.mp (List.mem_reverse.mp hp)
      exact ⟨p, lt_length_of_roleAt? hbar, .inl hbar⟩

/-! ### Whole notations -/

/-- A reading at its start follows no tokens. -/
theorem follows_start (defaultTicks : Int) : Follows [] defaultTicks .start := by
  have hnone : ∀ p role, roleAt? [] p ≠ some role := fun p role ↦ by simp [roleAt?]
  have houtside : ∀ number opened p, ¬ Encloses [] number opened p :=
    fun number opened p h ↦ hnone opened _ h.opening
  constructor
  · constructor
    · simp [Reading.start]
    · rintro ⟨⟩
    · simp [Reading.start, houtside]
    · exact fun opened hopened ↦ absurd hopened (hnone opened _)
    · exact fun p hclosed ↦ absurd hclosed (hnone p _)
  · refine iff_of_false (by simp [Reading.start]) ?_
    rintro ⟨mark, hmark⟩
    exact hnone mark _ hmark.marked
  · exact .nil
  · exact fun mark hmark ↦ absurd hmark (hnone mark _)

/-- A reading of tokens follows them. -/
theorem follows_of_foldlM
    (h : row.foldlM (Reading.take defaultTicks) .start = .ok reading) :
    Follows row defaultTicks reading := by
  induction row using List.reverseRecOn generalizing reading with
  | nil =>
    cases h
    exact follows_start defaultTicks
  | append_singleton before token ih =>
    obtain ⟨middle, hbefore, htake⟩ := foldlM_concat_eq_ok_iff.mp h
    exact (ih hbefore).concat (Reading.take_eq_ok_iff.mp htake)

/-- What ends with bars is grammatical, and the bars are as described. -/
theorem Follows.isGrammatical {bars : List Bar} (h : Follows row defaultTicks reading)
    (hfinish : reading.finish = .ok bars) :
    IsGrammatical row defaultTicks ∧
      List.Forall₂ (fun p bar ↦ IsDraftAt row defaultTicks p (.ofBar bar)) (barPlaces row)
        bars := by
  obtain ⟨hplace, hstarts, hdrafts⟩ := Reading.finish_eq_ok_iff.mp hfinish
  have hbars : List.Forall₂ (fun p bar ↦ IsDraftAt row defaultTicks p (.ofBar bar))
      (barPlaces row) bars := by
    rw [← List.forall₂_map_right_iff (f := Draft.ofBar), ← hdrafts, ← List.forall₂_reverse_iff,
      List.reverse_reverse]
    exact h.drafts
  have hat : ∀ p, roleAt? row p = some .bar →
      ∃ bar, IsDraftAt row defaultTicks p (.ofBar bar) := fun p hp ↦ by
    obtain ⟨bar, -, hbar⟩ := exists_mem_of_forall₂ hbars (mem_barPlaces_iff.mpr hp)
    exact ⟨bar, hbar⟩
  refine ⟨⟨fun opened hopened ↦ ?_, h.brackets.closed, h.ended, fun mark hmark ↦ ?_, fun p hp ↦ ?_,
    fun p draft hdraft ↦ ?_⟩, hbars⟩
  · rcases h.brackets.opened opened hopened with hfresh | ⟨number, hencloses⟩ | hgroup
    · exact absurd hopened (h.brackets.ne_opening (by simp [hplace]) hfresh)
    · rw [(h.brackets.enclosed number).mpr ⟨opened, hencloses⟩] at hplace
      cases hplace
    · exact hgroup
  · by_contra hnone
    have hwaiting : reading.startsRepeat = true :=
      h.starts.mpr ⟨mark, hmark, lt_length_of_roleAt? hmark, fun p hp _ hbar ↦ hnone ⟨p, hp, hbar⟩⟩
    rw [hstarts] at hwaiting
    cases hwaiting
  · obtain ⟨bar, spelling, -, hspelling, hreadable, -⟩ := hat p hp
    exact ⟨spelling, hspelling, hreadable⟩
  · obtain ⟨-, hp, -⟩ := id hdraft
    obtain ⟨bar, hbar⟩ := hat p hp
    rw [hdraft.unique hbar]
    exact ⟨bar, Bar.ofMarkers_eq_ok_iff.mpr ⟨rfl, rfl, rfl, rfl⟩⟩

/-- In a grammatical row, a group that is open at a place is closed there or behind it, with no
bracket opened before. -/
theorem IsGrammatical.exists_closing {opened : Nat} (h : IsGrammatical row defaultTicks)
    (hencloses : Encloses row number opened p) :
    ∃ q ≥ p, roleAt? row q = some .closing ∧ Lacks row .opening opened q := by
  obtain ⟨other, q, hgroup, hclosing⟩ := h.opened opened hencloses.opening
  refine ⟨q, ?_, hclosing, hgroup.unopened⟩
  by_contra hlt
  exact hencloses.unclosed q (by have := hgroup.before; omega) (by omega) hclosing

/-- A reading takes the next token of a grammatical row. -/
theorem IsGrammatical.exists_takes (h : IsGrammatical (before ++ token :: after) defaultTicks)
    (hfollows : Follows before defaultTicks reading) :
    ∃ next, reading.Takes defaultTicks token next := by
  have hhere : roleAt? (before ++ token :: after) before.length = some (reading.role token) := by
    rw [roleAt?_append_right, hfollows.brackets.role_eq]
  cases hrole : reading.role token with
  | number =>
    obtain ⟨opened, hlast, hopening⟩ :=
      hfollows.brackets.fresh (Reading.role_eq_number_iff.mp hrole)
    rw [← roleAt?_append_left (by omega)] at hopening
    obtain ⟨number, p, hencloses, -⟩ := h.opened opened hopening
    obtain ⟨digits, hdigits, hdenotes⟩ := hencloses.numbered
    rw [hlast, List.getElem?_append_right (Nat.le_refl _), Nat.sub_self] at hdigits
    cases hdigits
    exact ⟨_, .number hrole hdenotes hencloses.positive⟩
  | opening =>
    cases hplace : reading.place with
    | outside => exact ⟨_, .opening hrole hplace⟩
    | afterBracket =>
      rw [Reading.role_eq_number_iff.mpr hplace] at hrole
      cases hrole
    | inside number =>
      -- The group that is open would have to be closed before this bracket.
      obtain ⟨opened, hencloses⟩ := (hfollows.brackets.enclosed number).mp hplace
      have hbefore := hencloses.before
      obtain ⟨q, hq, hclosing, hlacks⟩ :=
        h.exists_closing ((encloses_append_left (Nat.le_refl _)).mpr hencloses)
      rw [hrole] at hhere
      rcases Nat.eq_or_lt_of_le hq with rfl | hlt
      · rw [hhere] at hclosing
        cases hclosing
      · exact absurd hhere (hlacks before.length (by omega) hlt)
  | closing =>
    rw [hrole] at hhere
    obtain ⟨number, opened, hencloses⟩ := h.closed _ hhere
    rw [encloses_append_left (Nat.le_refl _)] at hencloses
    exact ⟨_, .closing hrole ((hfollows.brackets.enclosed number).mpr ⟨opened, hencloses⟩)⟩
  | repeatStart => exact ⟨_, .repeatStart hrole⟩
  | repeatEnd =>
    rw [hrole] at hhere
    obtain ⟨p, hlt, hbar⟩ := h.ended _ hhere
    rw [roleAt?_append_left hlt] at hbar
    obtain ⟨draft, hdraft, -⟩ := exists_mem_of_forall₂ hfollows.drafts
      (List.mem_reverse.mpr (mem_barPlaces_iff.mpr hbar))
    obtain ⟨latest, earlier, hdrafts⟩ := List.exists_cons_of_ne_nil (List.ne_nil_of_mem hdraft)
    exact ⟨_, .repeatEnd hrole hdrafts⟩
  | bar =>
    rw [hrole] at hhere
    obtain ⟨spelling, hspelling, hreadable⟩ := h.spelled _ hhere
    rw [List.getElem?_append_right (Nat.le_refl _), Nat.sub_self] at hspelling
    obtain rfl : token = spelling.token := Option.some.inj hspelling
    obtain ⟨draft, hread, -⟩ :=
      Draft.exists_ofToken_eq_ok hreadable defaultTicks reading.place.variation
    exact ⟨_, .bar hrole hread⟩

/-- A grammatical row is read from its start. -/
theorem IsGrammatical.exists_foldlM (h : IsGrammatical (before ++ after) defaultTicks) :
    ∃ reading, before.foldlM (Reading.take defaultTicks) .start = .ok reading := by
  induction before using List.reverseRecOn generalizing after with
  | nil => exact ⟨.start, rfl⟩
  | append_singleton before token ih =>
    rw [List.append_assoc, List.singleton_append] at h
    obtain ⟨reading, hreading⟩ := ih h
    obtain ⟨next, htakes⟩ := h.exists_takes (follows_of_foldlM hreading)
    exact ⟨next, foldlM_concat_eq_ok_iff.mpr ⟨reading, hreading, Reading.take_eq_ok_iff.mpr htakes⟩⟩

/-- What follows a grammatical row ends with bars. -/
theorem IsGrammatical.exists_finish (h : IsGrammatical row defaultTicks)
    (hfollows : Follows row defaultTicks reading) : ∃ bars, reading.finish = .ok bars := by
  have hplace : reading.place = .outside := by
    cases hplace : reading.place with
    | outside => rfl
    | afterBracket =>
      obtain ⟨opened, hlast, hopening⟩ := hfollows.brackets.fresh hplace
      obtain ⟨number, p, hencloses, hclosing⟩ := h.opened opened hopening
      have hbefore := hencloses.before
      have hlength := lt_length_of_roleAt? hclosing
      omega
    | inside number =>
      obtain ⟨opened, hencloses⟩ := (hfollows.brackets.enclosed number).mp hplace
      obtain ⟨q, hq, hclosing, -⟩ := h.exists_closing hencloses
      have hlength := lt_length_of_roleAt? hclosing
      omega
  have hstarts : reading.startsRepeat = false := by
    rw [Bool.eq_false_iff, Ne, hfollows.starts]
    rintro ⟨mark, hmark⟩
    obtain ⟨p, hp, hbar⟩ := h.started mark hmark.marked
    exact hmark.next p hp (lt_length_of_roleAt? hbar) hbar
  have hdrafts : ∀ draft ∈ reading.drafts.reverse, ∃ bar, draft.toBar = .ok bar := by
    intro draft hdraft
    obtain ⟨p, -, hat⟩ := exists_mem_of_forall₂ hfollows.drafts.flip (List.mem_reverse.mp hdraft)
    obtain ⟨bar, hbar⟩ := h.accepted p draft hat
    exact ⟨bar, by rw [Draft.toBar, hbar]; rfl⟩
  obtain ⟨bars, hbars⟩ := exists_mapM_eq_ok_iff.mpr hdrafts
  refine ⟨bars, ?_⟩
  rw [Reading.finish, hplace, hstarts, hbars]
  rfl

/-- What is read is grammatical, and the bars are as described. -/
theorem isGrammatical_of_parse_eq_ok {text : String} {bars : List Bar} (h : 0 < defaultTicks)
    (hbars : parse text defaultTicks = .ok bars) :
    IsGrammatical (tokens text.toList) defaultTicks ∧
      List.Forall₂ (fun p bar ↦ IsDraftAt (tokens text.toList) defaultTicks p (.ofBar bar))
        (barPlaces (tokens text.toList)) bars := by
  obtain ⟨reading, hreading, hfinish⟩ := (parse_eq_ok_iff h).mp hbars
  exact (follows_of_foldlM hreading).isGrammatical hfinish

/-- What is grammatical is read. -/
theorem IsGrammatical.exists_parse_eq_ok {text : String} (hpositive : 0 < defaultTicks)
    (h : IsGrammatical (tokens text.toList) defaultTicks) :
    ∃ bars, parse text defaultTicks = .ok bars := by
  have hrow : IsGrammatical (tokens text.toList ++ []) defaultTicks := by
    rwa [List.append_nil]
  obtain ⟨reading, hreading⟩ := hrow.exists_foldlM
  obtain ⟨bars, hfinish⟩ := h.exists_finish (follows_of_foldlM hreading)
  exact ⟨bars, (parse_eq_ok_iff hpositive).mpr ⟨reading, hreading, hfinish⟩⟩

/-- A notation is read just if its tokens are grammatical, and then each bar is the one that is
described at its token. -/
theorem parse_accepts_isGrammatical (text : String) (defaultTicks : Int) (h : 0 < defaultTicks) :
    ((∃ bars, parse text defaultTicks = .ok bars) ↔
      IsGrammatical (tokens text.toList) defaultTicks) ∧
    ∀ bars, parse text defaultTicks = .ok bars →
      List.Forall₂ (fun p bar ↦ IsDraftAt (tokens text.toList) defaultTicks p (.ofBar bar))
        (barPlaces (tokens text.toList)) bars := by
  refine ⟨⟨?_, fun hgrammatical ↦ hgrammatical.exists_parse_eq_ok h⟩, fun bars hbars ↦ ?_⟩
  · rintro ⟨bars, hbars⟩
    exact (isGrammatical_of_parse_eq_ok h hbars).1
  · exact (isGrammatical_of_parse_eq_ok h hbars).2

/-- A pickup, a repeat with two endings, and a jump back to the beginning. -/
def scoreOnOneLine : String := "P=240 |: A [1 B :|] [2 C@fine] D@dc"

theorem pickupTicks_pos : 0 < 240 := by decide

def barsOnOneLine : List Bar :=
  [{ unmarkedBar "P" with ticks := 240, ticks_pos := pickupTicks_pos }, markedBar "A" .repeatStart,
    firstEndingBar "B", secondEndingWithFine "C", markedBar "D" .daCapo]

/-- The score on one line is grammatical, and its bars are described at five of thirteen tokens. -/
theorem parse_scoreOnOneLine :
    IsGrammatical (tokens scoreOnOneLine.toList) 960 ∧
      List.Forall₂ (fun p bar ↦ IsDraftAt (tokens scoreOnOneLine.toList) 960 p (.ofBar bar))
        [0, 2, 5, 10, 12] barsOnOneLine := by
  have hbars : parse scoreOnOneLine 960 = .ok barsOnOneLine := by rfl
  have hplaces : barPlaces (tokens scoreOnOneLine.toList) = [0, 2, 5, 10, 12] := by decide
  obtain ⟨haccepts, hdescribes⟩ := parse_accepts_isGrammatical scoreOnOneLine 960 (by decide)
  rw [← hplaces]
  exact ⟨haccepts.mp ⟨_, hbars⟩, hdescribes _ hbars⟩

/-- In a spelling that makes sense, no length has more digits than a numeral may have. -/
theorem Spelling.IsReadable.length_le {spelling : Spelling} {field : Field} {digits : List Char}
    (h : spelling.IsReadable) (hfield : field ∈ spelling.fields)
    (hdigits : field.length = some digits) : digits.length ≤ Numeral.maxDigits := by
  obtain ⟨number, value, -, hwritten⟩ := h.measured field hfield digits hdigits
  exact hwritten.short

/-- A length of 960 ticks with more leading zeros than a numeral may have digits. -/
def lengthWithZeros : List Char := List.replicate Numeral.maxDigits '0' ++ ['9', '6', '0']

def spellingWithZeros : Spelling := ⟨⟨['A'], some lengthWithZeros⟩, []⟩

theorem mem_of_mem_lengthWithZeros {char : Char} (h : char ∈ lengthWithZeros) :
    char ∈ ['0', '9', '6'] := by
  rcases List.mem_append.mp h with hzero | hrest
  · exact List.eq_of_mem_replicate hzero ▸ List.mem_cons_self
  · simp only [List.mem_cons, List.not_mem_nil, or_false] at hrest ⊢
    tauto

theorem token_spellingWithZeros : spellingWithZeros.token = 'A' :: '=' :: lengthWithZeros := by
  simp [spellingWithZeros, Spelling.token, Spelling.fields, Field.text]

theorem isPlain_spellingWithZeros : spellingWithZeros.IsPlain := by
  refine List.forall_mem_singleton.mpr ⟨fun hat ↦ ?_, by decide⟩
  have hdigits : '@' ∈ lengthWithZeros := by simpa [spellingWithZeros, Field.text] using hat
  exact absurd (mem_of_mem_lengthWithZeros hdigits) (by decide)

theorem isWord_token_spellingWithZeros : IsWord spellingWithZeros.token := by
  have hdigits : ∀ char ∈ ['0', '9', '6'], isWordChar char = true :=
    List.all_eq_true.mp (by decide)
  rw [token_spellingWithZeros]
  refine ⟨List.cons_ne_nil _ _, ?_⟩
  rw [List.forall_mem_cons, List.forall_mem_cons]
  exact ⟨by decide, by decide, fun char hchar ↦ hdigits char (mem_of_mem_lengthWithZeros hchar)⟩

/-- It is not enough that the one token is that of a bar with an id, without markers, and with a
whole number in decimal digits for its length: there may be too many of them. -/
theorem parse_spellingWithZeros_ne_ok :
    tokens (String.ofList spellingWithZeros.token).toList = [spellingWithZeros.token] ∧
      Role.ofToken spellingWithZeros.token = .bar ∧ spellingWithZeros.IsPlain ∧
      (∀ char ∈ lengthWithZeros, Text.isDecimal char = true) ∧
      Numeral.valueOf lengthWithZeros = 960 ∧
      (∃ bar, Bar.ofMarkers "A" 960 .empty none = .ok bar) ∧
      ∀ bars, parse (String.ofList spellingWithZeros.token) 960 ≠ .ok bars := by
  have htokens : tokens (String.ofList spellingWithZeros.token).toList =
      [spellingWithZeros.token] := by
    rw [String.toList_ofList, tokens_of_isWord isWord_token_spellingWithZeros]
  have hrole : Role.ofToken spellingWithZeros.token = .bar := by
    rw [token_spellingWithZeros]
    rfl
  have hdecimal : ∀ char ∈ ['0', '9', '6'], Text.isDecimal char = true :=
    List.all_eq_true.mp (by decide)
  have hvalue : Numeral.valueOf lengthWithZeros = 960 := by
    rw [lengthWithZeros, Numeral.valueOf_zeros_append]
    rfl
  refine ⟨htokens, hrole, isPlain_spellingWithZeros,
    fun char hchar ↦ hdecimal char (mem_of_mem_lengthWithZeros hchar), hvalue, ⟨_, rfl⟩,
    fun bars hbars ↦ ?_⟩
  obtain ⟨hgrammatical, -⟩ := isGrammatical_of_parse_eq_ok (by decide) hbars
  rw [htokens] at hgrammatical
  obtain ⟨spelling, hspelling, hreadable⟩ := hgrammatical.spelled 0 (congrArg some hrole)
  obtain rfl : spelling = spellingWithZeros :=
    hreadable.plain.eq_of_token_eq isPlain_spellingWithZeros (Option.some.inj hspelling).symm
  have hlength : lengthWithZeros.length = Numeral.maxDigits + 3 := by
    rw [lengthWithZeros, List.length_append, List.length_replicate]
    rfl
  have hshort := hreadable.length_le List.mem_cons_self rfl
  omega

end ScoreRepeats.Notation
