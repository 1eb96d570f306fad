import ScoreRepeats.Notation.Reading
import ScoreRepeats.Proofs.TokenRoles

/-!
# Steps of a reading

The reading of a notation takes its tokens one by one. `Reading.Takes` says which tokens a reading
takes and what comes of each, with one case for each role; a token is taken just in these cases
(`Reading.take_eq_ok_iff`). A notation has bars just if a reading of its tokens ends with them
(`parse_eq_ok_iff`).
-/

set_option autoImplicit false
set_option relaxedAutoImplicit false

namespace ScoreRepeats.Notation

namespace Reading

/-- The role of the next token in a reading. -/
def role (reading : Reading) (token : Token) : Role :=
  if reading.place = .afterBracket then .number else .ofToken token

/-- A reading takes a token and goes on as another. -/
inductive Takes (defaultTicks : Int) (reading : Reading) (token : Token) : Reading → Prop
  | number {number : Int} (role : reading.role token = .number) (denotes : Denotes token number)
      (positive : 1 ≤ number) :
      Takes defaultTicks reading token { reading with place := .inside number }
  | opening (role : reading.role token = .opening) (outside : reading.place = .outside) :
      Takes defaultTicks reading token { reading with place := .afterBracket }
  | closing {number : Int} (role : reading.role token = .closing)
      (inside : reading.place = .inside number) :
      Takes defaultTicks reading token { reading with place := .outside }
  | repeatStart (role : reading.role token = .repeatStart) :
      Takes defaultTicks reading token { reading with startsRepeat := true }
  | repeatEnd {latest : Draft} {earlier : List Draft} (role : reading.role token = .repeatEnd)
      (drafts : reading.drafts = latest :: earlier) :
      Takes defaultTicks reading token { reading with drafts := latest.mark .repeatEnd :: earlier }
  | bar {draft : Draft} (role : reading.role token = .bar)
      (read : Draft.ofToken token defaultTicks reading.place.variation = .ok draft) :
      Takes defaultTicks reading token
        { reading with
          drafts := (if reading.startsRepeat then draft.mark .repeatStart else draft) ::
            reading.drafts
          startsRepeat := false }

variable {defaultTicks : Int} {reading next : Reading} {token : Token}

theorem role_eq_number_iff : reading.role token = .number ↔ reading.place = .afterBracket := by
  unfold role Role.ofToken
  split_ifs <;> simp_all

theorem role_eq_ofToken (h : reading.place ≠ .afterBracket) :
    reading.role token = .ofToken token :=
  if_neg h

/-- The number of a variation is taken if it is written as one and positive. -/
theorem takeNumber_eq_ok_iff : reading.takeNumber token = .ok next ↔
    ∃ number, Denotes token number ∧ 1 ≤ number ∧
      { reading with place := .inside number } = next := by
  unfold takeNumber
  constructor
  · intro h
    split_ifs at h with hdigits
    cases hread : readNumber token with
    | error error =>
      rw [hread] at h
      cases h
    | ok number =>
      rw [hread] at h
      dsimp only at h
      split_ifs at h with hpositive
      exact ⟨number, (readNumber_eq_ok_iff hdigits).mp hread, by omega, Except.ok.inj h⟩
  · rintro ⟨number, hdenotes, hpositive, rfl⟩
    rw [if_pos hdenotes.isDigits, (readNumber_eq_ok_iff hdenotes.isDigits).mpr hdenotes]
    dsimp only
    rw [if_neg (by omega)]

/-- A bracket is opened outside of others. -/
theorem takeBracket_eq_ok_iff (h : reading.place ≠ .afterBracket) :
    reading.takeBracket = .ok next ↔
      reading.place = .outside ∧ { reading with place := .afterBracket } = next := by
  unfold takeBracket
  cases hplace : reading.place with
  | outside => simp
  | afterBracket => exact absurd hplace h
  | inside number => simp

/-- A bracket is closed inside. -/
theorem takeClosing_eq_ok_iff : reading.takeClosing = .ok next ↔
    (∃ number, reading.place = .inside number) ∧ { reading with place := .outside } = next := by
  unfold takeClosing
  cases hplace : reading.place <;> simp

/-- The end of a repeat belongs to the latest bar. -/
theorem takeRepeatEnd_eq_ok_iff : reading.takeRepeatEnd = .ok next ↔
    ∃ latest earlier, reading.drafts = latest :: earlier ∧
      { reading with drafts := latest.mark .repeatEnd :: earlier } = next := by
  unfold takeRepeatEnd
  cases hdrafts : reading.drafts with
  | nil => simp
  | cons latest earlier =>
    constructor
    · rintro ⟨⟩
      exact ⟨latest, earlier, rfl, rfl⟩
    · rintro ⟨_, _, ⟨⟩, rfl⟩
      rfl

/-- How a token is taken depends on its role. -/
theorem take_eq_of_role : reading.take defaultTicks token =
    match reading.role token with
    | .number => reading.takeNumber token
    | .opening => reading.takeBracket
    | .closing => reading.takeClosing
    | .repeatStart => .ok { reading with startsRepeat := true }
    | .repeatEnd => reading.takeRepeatEnd
    | .bar => reading.takeBar defaultTicks token := by
  unfold take role Role.ofToken
  split_ifs <;> rfl

/-- A token is taken just in the cases of its role. -/
theorem take_eq_ok_iff :
    reading.take defaultTicks token = .ok next ↔ Takes defaultTicks reading token next := by
  rw [take_eq_of_role]
  constructor
  · intro h
    cases hrole : reading.role token with
    | number =>
      rw [hrole] at h
      obtain ⟨number, hdenotes, hpositive, rfl⟩ := takeNumber_eq_ok_iff.mp h
      exact .number hrole hdenotes hpositive
    | opening =>
      have hplace : reading.place ≠ .afterBracket := fun hafter ↦ by
        rw [role_eq_number_iff.mpr hafter] at hrole
        cases hrole
      rw [hrole] at h
      obtain ⟨houtside, rfl⟩ := (takeBracket_eq_ok_iff hplace).mp h
      exact .opening hrole houtside
    | closing =>
      rw [hrole] at h
      obtain ⟨⟨number, hinside⟩, rfl⟩ := takeClosing_eq_ok_iff.mp h
      exact .closing hrole hinside
    | repeatStart =>
      rw [hrole] at h
      cases h
      exact .repeatStart hrole
    | repeatEnd =>
      rw [hrole] at h
      obtain ⟨latest, earlier, hdrafts, rfl⟩ := takeRepeatEnd_eq_ok_iff.mp h
      exact .repeatEnd hrole hdrafts
    | bar =>
      rw [hrole] at h
      obtain ⟨draft, hread, rfl⟩ := map_eq_ok_iff.mp h
      exact .bar hrole hread
  · intro h
    cases h with
    | number hrole hdenotes hpositive =>
      rw [hrole]
      exact takeNumber_eq_ok_iff.mpr ⟨_, hdenotes, hpositive, rfl⟩
    | opening hrole houtside =>
      rw [hrole]
      exact (takeBracket_eq_ok_iff (by simp [houtside])).mpr ⟨houtside, rfl⟩
    | closing hrole hinside =>
      rw [hrole]
      exact takeClosing_eq_ok_iff.mpr ⟨⟨_, hinside⟩, rfl⟩
    | repeatStart hrole => rw [hrole]
    | repeatEnd hrole hdrafts =>
      rw [hrole]
      exact takeRepeatEnd_eq_ok_iff.mpr ⟨_, _, hdrafts, rfl⟩
    | bar hrole hread =>
      rw [hrole]
      exact map_eq_ok_iff.mpr ⟨_, hread, rfl⟩

/-- A row is read from where its first token leads. -/
theorem foldlM_cons_of_takes {row : List Token} (h : Takes defaultTicks reading token next) :
    (token :: row).foldlM (take defaultTicks) reading = row.foldlM (take defaultTicks) next := by
  rw [List.foldlM_cons, take_eq_ok_iff.mpr h]
  rfl

/-- A reading ends with bars if all brackets are closed, no repeat start is waiting for a bar, and
every draft is that of a bar. -/
theorem finish_eq_ok_iff {bars : List Bar} : reading.finish = .ok bars ↔
    reading.place = .outside ∧ reading.startsRepeat = false ∧
      reading.drafts.reverse = bars.map Draft.ofBar := by
  have hdrafts : reading.drafts.reverse.mapM Draft.toBar = .ok bars ↔
      reading.drafts.reverse = bars.map Draft.ofBar := by
    simp only [mapM_eq_ok_iff, Draft.toBar_eq_ok_iff]
    rw [← List.forall₂_map_right_iff (f := Draft.ofBar), List.forall₂_eq_eq_eq]
  rw [finish, ← hdrafts]
  cases hplace : reading.place <;> cases hstarts : reading.startsRepeat <;> simp

/-- The end of a repeat is taken only after a bar. -/
theorem Takes.drafts_ne_nil (h : Takes defaultTicks reading token next)
    (hrole : reading.role token = .repeatEnd) : reading.drafts ≠ [] := by
  cases h with
  | repeatEnd _ drafts =>
    rw [drafts]
    exact List.cons_ne_nil _ _
  | number role | opening role | closing role | repeatStart role | bar role =>
    rw [role] at hrole
    cases hrole

end Reading

variable {defaultTicks : Int}

/-- A notation is read from its tokens. -/
theorem parse_of_pos {text : String} (h : 0 < defaultTicks) :
    parse text defaultTicks = barsOfTokens defaultTicks (tokens text.toList) :=
  if_neg (Int.not_le.mpr h)

/-- Tokens have bars if a reading of them ends with these. -/
theorem barsOfTokens_eq_ok_iff {row : List Token} {bars : List Bar} :
    barsOfTokens defaultTicks row = .ok bars ↔ ∃ reading,
      row.foldlM (Reading.take defaultTicks) .start = .ok reading ∧ reading.finish = .ok bars := by
  rw [barsOfTokens]
  cases row.foldlM (Reading.take defaultTicks) .start <;> simp

/-- A notation has bars if a reading of its tokens ends with these. -/
theorem parse_eq_ok_iff {text : String} {bars : List Bar} (h : 0 < defaultTicks) :
    parse text defaultTicks = .ok bars ↔ ∃ reading,
      (tokens text.toList).foldlM (Reading.take defaultTicks) .start = .ok reading ∧
        reading.finish = .ok bars := by
  rw [parse_of_pos h, barsOfTokens_eq_ok_iff]

end ScoreRepeats.Notation
