import ScoreRepeats.Proofs.BarTokens

/-!
# Roles of tokens

What a token means depends on the one before it: what follows an opening bracket is the number of a
variation, whatever it looks like (`roleAt?`). The places of the roles say which group of brackets
stands around a place (`Encloses`), and which repeat marks belong to a bar (`MarksNext`,
`MarksPrevious`). What lies before a place does not depend on the tokens behind it, and each of
these relations is known after one more token from what was known before (`encloses_concat_iff`,
`exists_marksNext_concat_iff`, `exists_marksPrevious_concat_iff`).
-/

set_option autoImplicit false
set_option relaxedAutoImplicit false

namespace ScoreRepeats.Notation

/-- What a token is there for. -/
inductive Role
  | opening | number | closing | repeatStart | repeatEnd | bar
  deriving DecidableEq, Repr

/-- The role of a token that follows no opening bracket. -/
def Role.ofToken (token : Token) : Role :=
  if token = ['['] then .opening
  else if token = [']'] then .closing
  else if token = ['|', ':'] then .repeatStart
  else if token = [':', '|'] then .repeatEnd
  else .bar

/-- The role of a token by the one before it. -/
def Role.after (previous : Option Token) (token : Token) : Role :=
  if previous = some ['['] then .number else .ofToken token

/-- The role of the token at a place. -/
def roleAt? (row : List Token) (p : Nat) : Option Role :=
  row[p]?.map (Role.after (row.take p).getLast?)

/-- The places of the bars. -/
def barPlaces (row : List Token) : List Nat :=
  (List.range row.length).filter fun p ↦ roleAt? row p = some .bar

/-- No token between two places has a role. -/
def Lacks (row : List Token) (role : Role) (p q : Nat) : Prop :=
  ∀ r, p < r → r < q → roleAt? row r ≠ some role

/-- A bracket is opened at a place with the number of a variation, and no bracket stands between
this number and another place. -/
structure Encloses (row : List Token) (number : Int) (opened p : Nat) : Prop where
  opening : roleAt? row opened = some .opening
  numbered : ∃ digits, row[opened + 1]? = some digits ∧ Denotes digits number
  positive : 1 ≤ number
  before : opened + 1 < p
  unopened : Lacks row .opening opened p
  unclosed : Lacks row .closing opened p

/-- The start of a repeat is marked at a place, and another place is before or at the next bar. -/
structure MarksNext (row : List Token) (mark p : Nat) : Prop where
  marked : roleAt? row mark = some .repeatStart
  before : mark < p
  next : Lacks row .bar mark p

/-- The end of a repeat is marked at a place, with no bar between it and another place. -/
structure MarksPrevious (row : List Token) (p mark : Nat) : Prop where
  marked : roleAt? row mark = some .repeatEnd
  after : p < mark
  previous : Lacks row .bar p mark

variable {row before after : List Token} {token : Token} {role : Role} {number : Int}
  {opened p q : Nat}

theorem roleAt?_append_left (h : p < before.length) :
    roleAt? (before ++ after) p = roleAt? before p := by
  rw [roleAt?, roleAt?, List.getElem?_append_left h, List.take_append_of_le_length (Nat.le_of_lt h)]

theorem roleAt?_append_right :
    roleAt? (before ++ token :: after) before.length = some (.after before.getLast? token) := by
  rw [roleAt?, List.getElem?_append_right (Nat.le_refl _), List.take_left, Nat.sub_self]
  rfl

theorem lt_length_of_roleAt? (h : roleAt? row p = some role) : p < row.length := by
  obtain ⟨token, htoken, -⟩ := Option.map_eq_some_iff.mp h
  exact (List.getElem?_eq_some_iff.mp htoken).1

/-- With one more token, a role is where it was, or at the end if the token has it. -/
theorem roleAt?_concat_iff : roleAt? (before ++ [token]) p = some role ↔
    roleAt? before p = some role ∨ p = before.length ∧ Role.after before.getLast? token = role := by
  constructor
  · intro h
    have hlength := lt_length_of_roleAt? h
    rw [List.length_append, List.length_singleton] at hlength
    rcases Nat.lt_succ_iff_lt_or_eq.mp hlength with hlt | rfl
    · rw [roleAt?_append_left hlt] at h
      exact .inl h
    · rw [roleAt?_append_right] at h
      exact .inr ⟨rfl, Option.some.inj h⟩
  · rintro (h | ⟨rfl, rfl⟩)
    · rwa [roleAt?_append_left (lt_length_of_roleAt? h)]
    · exact roleAt?_append_right

/-- An opening bracket is written as one. -/
theorem getElem?_of_opening (h : roleAt? row p = some .opening) : row[p]? = some ['['] := by
  obtain ⟨token, htoken, hrole⟩ := Option.map_eq_some_iff.mp h
  rw [htoken]
  unfold Role.after Role.ofToken at hrole
  split_ifs at hrole with _ hopening
  rw [hopening]

/-- What follows an opening bracket is a number. -/
theorem after_eq_number_of_opening (h : roleAt? before p = some .opening)
    (hlast : p + 1 = before.length) : Role.after before.getLast? token = .number := by
  have hp := getElem?_of_opening h
  rw [Role.after, List.getLast?_eq_getElem?, ← hlast, Nat.add_sub_cancel, hp, if_pos rfl]

theorem mem_barPlaces_iff : p ∈ barPlaces row ↔ roleAt? row p = some .bar := by
  rw [barPlaces, List.mem_filter, List.mem_range, decide_eq_true_eq, and_iff_right_iff_imp]
  exact lt_length_of_roleAt?

/-- The bars are listed from first to last. -/
theorem pairwise_barPlaces : (barPlaces row).Pairwise (· < ·) :=
  List.pairwise_lt_range.filter _

/-- One more token is one more bar, or none. -/
theorem barPlaces_concat : barPlaces (before ++ [token]) =
    barPlaces before ++
      if Role.after before.getLast? token = .bar then [before.length] else [] := by
  rw [barPlaces, List.length_append, List.length_singleton, List.range_succ, List.filter_append]
  congr 1
  · refine List.filter_congr fun p hp ↦ ?_
    rw [roleAt?_append_left (List.mem_range.mp hp)]
  · rw [List.filter_singleton, roleAt?_append_right]
    simp

theorem lacks_append_left (h : q ≤ before.length) :
    Lacks (before ++ after) role p q ↔ Lacks before role p q := by
  refine forall_congr' fun r ↦ imp_congr_right fun _ ↦ imp_congr_right fun hr ↦ ?_
  rw [roleAt?_append_left (Nat.lt_of_lt_of_le hr h)]

/-- Behind one more token a role is still missing if the token does not have it. -/
theorem lacks_concat_iff (h : p < before.length) :
    Lacks (before ++ [token]) role p (before.length + 1) ↔
      Lacks before role p before.length ∧ Role.after before.getLast? token ≠ role := by
  constructor
  · intro hlacks
    refine ⟨fun r hp hr ↦ ?_, fun hrole ↦ ?_⟩
    · rw [← roleAt?_append_left hr]
      exact hlacks r hp (Nat.lt_succ_of_lt hr)
    · refine hlacks before.length h (Nat.lt_succ_self _) ?_
      rw [roleAt?_append_right, hrole]
  · rintro ⟨hlacks, hrole⟩ r hp hr
    rcases Nat.lt_succ_iff_lt_or_eq.mp hr with hlt | rfl
    · rw [roleAt?_append_left hlt]
      exact hlacks r hp hlt
    · rw [roleAt?_append_right]
      exact fun hsome ↦ hrole (Option.some.inj hsome)

/-! ### Groups -/

/-- What stands around a place does not depend on the tokens behind it. -/
theorem encloses_append_left (h : p ≤ before.length) :
    Encloses (before ++ after) number opened p ↔ Encloses before number opened p := by
  constructor
  · rintro ⟨hopening, hnumbered, hpositive, hbefore, hunopened, hunclosed⟩
    rw [roleAt?_append_left (by omega)] at hopening
    rw [List.getElem?_append_left (by omega)] at hnumbered
    exact ⟨hopening, hnumbered, hpositive, hbefore, (lacks_append_left h).mp hunopened,
      (lacks_append_left h).mp hunclosed⟩
  · rintro ⟨hopening, hnumbered, hpositive, hbefore, hunopened, hunclosed⟩
    refine ⟨?_, ?_, hpositive, hbefore, (lacks_append_left h).mpr hunopened,
      (lacks_append_left h).mpr hunclosed⟩
    · rwa [roleAt?_append_left (by omega)]
    · rwa [List.getElem?_append_left (by omega)]

/-- One group at most stands around a place. -/
theorem Encloses.unique {other : Int} {again : Nat} (h : Encloses row number opened p)
    (hother : Encloses row other again p) : opened = again ∧ number = other := by
  have hopened : opened = again := by
    rcases Nat.lt_trichotomy opened again with hlt | heq | hlt
    · exact absurd hother.opening (h.unopened again hlt (by have := hother.before; omega))
    · exact heq
    · exact absurd h.opening (hother.unopened opened hlt (by have := h.before; omega))
  subst hopened
  obtain ⟨digits, hdigits, hdenotes⟩ := h.numbered
  obtain ⟨others, hothers, hagain⟩ := hother.numbered
  obtain rfl : digits = others := Option.some.inj (hdigits.symm.trans hothers)
  exact ⟨rfl, hdenotes.unique hagain⟩

/-- The group around the place behind one more token is the one before it, unless the token is a
bracket, or it begins with the token as its number. -/
theorem encloses_concat_iff :
    Encloses (before ++ [token]) number opened (before.length + 1) ↔
      (Encloses before number opened before.length ∧
        Role.after before.getLast? token ≠ .opening ∧ Role.after before.getLast? token ≠ .closing) ∨
      (opened + 1 = before.length ∧ roleAt? before opened = some .opening ∧
        Denotes token number ∧ 1 ≤ number) := by
  constructor
  · rintro ⟨hopening, ⟨digits, hdigits, hdenotes⟩, hpositive, hbefore, hunopened, hunclosed⟩
    have hlt : opened < before.length := by omega
    rw [roleAt?_append_left hlt] at hopening
    rw [lacks_concat_iff hlt] at hunopened hunclosed
    rcases Nat.lt_or_ge (opened + 1) before.length with hinside | hlast
    · rw [List.getElem?_append_left hinside] at hdigits
      exact .inl ⟨⟨hopening, ⟨digits, hdigits, hdenotes⟩, hpositive, hinside, hunopened.1,
        hunclosed.1⟩, hunopened.2, hunclosed.2⟩
    · have hlast : opened + 1 = before.length := by omega
      rw [hlast, List.getElem?_concat_length] at hdigits
      cases hdigits
      exact .inr ⟨hlast, hopening, hdenotes, hpositive⟩
  · rintro (⟨⟨hopening, hnumbered, hpositive, hbefore, hunopened, hunclosed⟩, hrole, hrole'⟩ |
      ⟨hlast, hopening, hdenotes, hpositive⟩)
    · have hlt : opened < before.length := by omega
      refine ⟨?_, ?_, hpositive, by omega, (lacks_concat_iff hlt).mpr ⟨hunopened, hrole⟩,
        (lacks_concat_iff hlt).mpr ⟨hunclosed, hrole'⟩⟩
      · rwa [roleAt?_append_left hlt]
      · rwa [List.getElem?_append_left hbefore]
    · have hlt : opened < before.length := by omega
      have hnumber : Role.after before.getLast? token = .number :=
        after_eq_number_of_opening hopening hlast
      have hnothing : ∀ role, Lacks before role opened before.length := fun role r hr hr' ↦ by omega
      refine ⟨?_, ⟨token, ?_, hdenotes⟩, hpositive, by omega,
        (lacks_concat_iff hlt).mpr ⟨hnothing _, by simp [hnumber]⟩,
        (lacks_concat_iff hlt).mpr ⟨hnothing _, by simp [hnumber]⟩⟩
      · rwa [roleAt?_append_left hlt]
      · rw [hlast, List.getElem?_concat_length]

/-! ### Repeat marks -/

/-- The marks before a place do not depend on the tokens behind it. -/
theorem marksNext_append_left {mark : Nat} (h : p ≤ before.length) :
    MarksNext (before ++ after) mark p ↔ MarksNext before mark p := by
  constructor
  · rintro ⟨hmarked, hlt, hnext⟩
    rw [roleAt?_append_left (Nat.lt_of_lt_of_le hlt h)] at hmarked
    exact ⟨hmarked, hlt, (lacks_append_left h).mp hnext⟩
  · rintro ⟨hmarked, hlt, hnext⟩
    refine ⟨?_, hlt, (lacks_append_left h).mpr hnext⟩
    rwa [roleAt?_append_left (Nat.lt_of_lt_of_le hlt h)]

/-- A repeat start is waiting for a bar behind one more token if the token is one, or if one was
waiting and the token is no bar. -/
theorem exists_marksNext_concat_iff :
    (∃ mark, MarksNext (before ++ [token]) mark (before.length + 1)) ↔
      Role.after before.getLast? token = .repeatStart ∨
      ((∃ mark, MarksNext before mark before.length) ∧
        Role.after before.getLast? token ≠ .bar) := by
  constructor
  · rintro ⟨mark, hmarked, hlt, hnext⟩
    rcases Nat.lt_succ_iff_lt_or_eq.mp hlt with hmark | rfl
    · rw [roleAt?_append_left hmark] at hmarked
      rw [lacks_concat_iff hmark] at hnext
      exact .inr ⟨⟨mark, hmarked, hmark, hnext.1⟩, hnext.2⟩
    · rw [roleAt?_append_right] at hmarked
      exact .inl (Option.some.inj hmarked)
  · rintro (hrole | ⟨⟨mark, hmarked, hmark, hnext⟩, hrole⟩)
    · refine ⟨before.length, ?_, Nat.lt_succ_self _, fun r hr hr' ↦ by omega⟩
      rw [roleAt?_append_right, hrole]
    · refine ⟨mark, ?_, Nat.lt_succ_of_lt hmark, (lacks_concat_iff hmark).mpr ⟨hnext, hrole⟩⟩
      rwa [roleAt?_append_left hmark]

/-- The end of a repeat is marked behind a place if it was, or if one more token marks it and no bar
stands between. -/
theorem exists_marksPrevious_concat_iff (h : p < before.length) :
    (∃ mark, MarksPrevious (before ++ [token]) p mark) ↔
      (∃ mark, MarksPrevious before p mark) ∨
      (Role.after before.getLast? token = .repeatEnd ∧ Lacks before .bar p before.length) := by
  constructor
  · rintro ⟨mark, hmarked, hlt, hprevious⟩
    have hlength := lt_length_of_roleAt? hmarked
    rw [List.length_append, List.length_singleton] at hlength
    rcases Nat.lt_succ_iff_lt_or_eq.mp hlength with hmark | rfl
    · rw [roleAt?_append_left hmark] at hmarked
      rw [lacks_append_left (Nat.le_of_lt hmark)] at hprevious
      exact .inl ⟨mark, hmarked, hlt, hprevious⟩
    · rw [roleAt?_append_right] at hmarked
      exact .inr ⟨Option.some.inj hmarked, (lacks_append_left (Nat.le_refl _)).mp hprevious⟩
  · rintro (⟨mark, hmarked, hlt, hprevious⟩ | ⟨hrole, hlacks⟩)
    · have hmark := lt_length_of_roleAt? hmarked
      refine ⟨mark, ?_, hlt, (lacks_append_left (Nat.le_of_lt hmark)).mpr hprevious⟩
      rwa [roleAt?_append_left hmark]
    · refine ⟨before.length, ?_, h, (lacks_append_left (Nat.le_refl _)).mpr hlacks⟩
      rw [roleAt?_append_right, hrole]

end ScoreRepeats.Notation
