import ScoreRepeats.Proofs.ReadingSteps

/-!
# Errors of the bar notation

What cannot be read is an error of the notation, with one exception: a text of characters that
denote digits is taken for a number, and where none is written in it (`IsUnreadable`) the complaint
is that of the number. A reading ends so just if this is the first that goes wrong
(`parse_escapes_iff_failsOnNumber`).
-/

set_option autoImplicit false
set_option relaxedAutoImplicit false

namespace ScoreRepeats.Notation

/-- A text of characters that denote digits in which no number is written: one of the characters is
not decimal, or there are too many of them. -/
structure IsUnreadable (text : List Char) : Prop where
  digits : Text.isDigits text = true
  wrong : (∃ char ∈ text, Text.isDecimal char = false) ∨ Numeral.maxDigits < text.length

/-- Of the lengths in a spelling that are not written as numbers, the first is unreadable. -/
def Spelling.HasUnreadableLength (spelling : Spelling) : Prop :=
  ∃ before field after, spelling.fields = before ++ field :: after ∧
    (∀ earlier ∈ before, ∃ result, earlier.Gives result) ∧
    ∃ digits, field.length = some digits ∧ IsUnreadable digits

/-- The first token that is not taken fails for a number: it is the number of a variation, or the
token of a bar with such a length. -/
def FailsOnNumber (row : List Token) (defaultTicks : Int) : Prop :=
  ∃ before token after reading, row = before ++ token :: after ∧
    before.foldlM (Reading.take defaultTicks) .start = .ok reading ∧
    ((reading.role token = .number ∧ IsUnreadable token) ∨
      (reading.role token = .bar ∧ ∃ spelling : Spelling,
        spelling.IsPlain ∧ spelling.token = token ∧ spelling.HasUnreadableLength))

/-- A failure that is not an error of the notation. -/
def Escapes {α : Type} (result : Except Error α) : Prop :=
  ∃ error, result = .error error ∧ error.isNotational = false

section Results

variable {α β σ : Type} {result : α} {error : Error}

theorem not_escapes_ok : ¬ Escapes (.ok result : Except Error α) := by
  rintro ⟨_, ⟨⟩, -⟩

theorem escapes_error_iff :
    Escapes (.error error : Except Error α) ↔ error.isNotational = false := by
  constructor
  · rintro ⟨_, ⟨⟩, herror⟩
    exact herror
  · exact fun herror ↦ ⟨error, rfl, herror⟩

theorem escapes_map_iff {first : Except Error α} {f : α → β} :
    Escapes (first.map f) ↔ Escapes first := by
  simp only [Escapes, map_eq_error_iff]

/-- Working off a list escapes just if an item does after those before it gave results. -/
theorem escapes_mapM_iff {work : α → Except Error β} {items : List α} :
    Escapes (items.mapM work) ↔ ∃ before item after, items = before ++ item :: after ∧
      (∀ earlier ∈ before, ∃ result, work earlier = .ok result) ∧ Escapes (work item) := by
  simp only [Escapes, mapM_eq_error_iff]
  constructor
  · rintro ⟨error, ⟨before, item, after, hitems, hbefore, hitem⟩, herror⟩
    exact ⟨before, item, after, hitems, hbefore, error, hitem, herror⟩
  · rintro ⟨before, item, after, hitems, hbefore, error, hitem, herror⟩
    exact ⟨error, ⟨before, item, after, hitems, hbefore, hitem⟩, herror⟩

/-- Many steps escape just if one of them does after those before it were taken. -/
theorem escapes_foldlM_iff {step : σ → α → Except Error σ} {items : List α} {state : σ} :
    Escapes (items.foldlM step state) ↔ ∃ before item after middle,
      items = before ++ item :: after ∧ before.foldlM step state = .ok middle ∧
        Escapes (step middle item) := by
  simp only [Escapes, foldlM_eq_error_iff]
  constructor
  · rintro ⟨error, ⟨before, item, after, middle, hitems, hbefore, hitem⟩, herror⟩
    exact ⟨before, item, after, middle, hitems, hbefore, error, hitem, herror⟩
  · rintro ⟨before, item, after, middle, hitems, hbefore, error, hitem, herror⟩
    exact ⟨error, ⟨before, item, after, middle, hitems, hbefore, hitem⟩, herror⟩

end Results

variable {text : List Char} {token : Token} {defaultTicks : Int} {spelling : Spelling}
  {reading : Reading}

/-! ### Numbers -/

/-- A number is written in a text of characters that denote digits, unless it is unreadable. -/
theorem not_isUnreadable_iff (h : Text.isDigits text = true) :
    ¬ IsUnreadable text ↔ ∃ number, Denotes text number := by
  rw [exists_denotes_iff]
  constructor
  · intro hreadable
    refine ⟨?_, fun char hchar ↦ ?_, ?_⟩
    · rintro rfl
      cases h
    · by_contra hlonely
      exact hreadable ⟨h, .inl ⟨char, hchar, Bool.eq_false_iff.mpr hlonely⟩⟩
    · by_contra hlong
      exact hreadable ⟨h, .inr (Nat.not_le.mp hlong)⟩
  · rintro ⟨-, hdecimal, hshort⟩ ⟨-, ⟨char, hchar, hlonely⟩ | hlong⟩
    · rw [hdecimal char hchar] at hlonely
      cases hlonely
    · exact Nat.not_lt.mpr hshort hlong

/-- The reading of a number escapes just if the text is unreadable. -/
theorem escapes_readNumber_iff (h : Text.isDigits text = true) :
    Escapes (readNumber text) ↔ IsUnreadable text := by
  rw [← not_iff_not, not_isUnreadable_iff h]
  simp only [← readNumber_eq_ok_iff h]
  rw [readNumber]
  cases Numeral.read text with
  | error error => simp [Except.mapError, escapes_error_iff, Error.isNotational]
  | ok number => simp [Except.mapError, not_escapes_ok]

/-! ### Tokens of bars -/

theorem escapes_ticks_iff {field : Field} :
    Escapes (field.ticks token) ↔ ∃ digits, field.length = some digits ∧ IsUnreadable digits := by
  rw [Field.ticks]
  cases hlength : field.length with
  | none => simp [not_escapes_ok]
  | some digits =>
    dsimp only
    by_cases hdigits : Text.isDigits digits = true
    · rw [if_pos hdigits, escapes_map_iff, escapes_readNumber_iff hdigits]
      simp
    · rw [if_neg hdigits, escapes_error_iff]
      refine iff_of_false (by simp [Error.isNotational]) ?_
      rintro ⟨_, ⟨⟩, hunreadable⟩
      exact hdigits hunreadable.digits

/-- An unknown marker is an error of the notation. -/
theorem not_escapes_marker {field : Field} : ¬ Escapes (field.marker token) := by
  rw [Field.marker]
  cases markerNamed? (String.ofList field.name) with
  | none => simp [escapes_error_iff, Error.isNotational]
  | some marker => exact not_escapes_ok

/-- The token of a bar escapes just if the first length that is no number is unreadable. -/
theorem escapes_ofToken_iff {variation : Option Int} (h : spelling.IsPlain) :
    Escapes (Draft.ofToken spelling.token defaultTicks variation) ↔
      spelling.HasUnreadableLength := by
  have hlengths : Escapes (spelling.fields.mapM fun field ↦ field.ticks spelling.token) ↔
      spelling.HasUnreadableLength := by
    simp only [escapes_mapM_iff, escapes_ticks_iff, Field.ticks_eq_ok_iff,
      Spelling.HasUnreadableLength]
  rw [Draft.ofToken_token h, ← hlengths]
  cases spelling.fields.mapM fun field ↦ field.ticks spelling.token with
  | error error => simp only [escapes_error_iff]
  | ok lengths =>
    refine iff_of_false ?_ not_escapes_ok
    dsimp only
    split_ifs with hnamed
    · simp [escapes_error_iff, Error.isNotational]
    · rw [escapes_map_iff, escapes_mapM_iff]
      rintro ⟨before, field, after, -, -, hfield⟩
      exact not_escapes_marker hfield

/-! ### Readings -/

theorem escapes_takeNumber_iff : Escapes (reading.takeNumber token) ↔ IsUnreadable token := by
  rw [Reading.takeNumber]
  by_cases hdigits : Text.isDigits token = true
  · rw [if_pos hdigits, ← escapes_readNumber_iff hdigits]
    cases readNumber token with
    | error error => simp only [escapes_error_iff]
    | ok number =>
      refine iff_of_false ?_ not_escapes_ok
      dsimp only
      split_ifs
      · simp [escapes_error_iff, Error.isNotational]
      · exact not_escapes_ok
  · rw [if_neg hdigits, escapes_error_iff]
    exact iff_of_false (by simp [Error.isNotational]) fun hunreadable ↦ hdigits hunreadable.digits

/-- Brackets and the ends of repeats do not escape. -/
theorem not_escapes_takeBracket : ¬ Escapes reading.takeBracket := by
  rw [Reading.takeBracket]
  cases reading.place <;> simp [escapes_error_iff, Error.isNotational, not_escapes_ok]

theorem not_escapes_takeClosing : ¬ Escapes reading.takeClosing := by
  rw [Reading.takeClosing]
  cases reading.place <;> simp [escapes_error_iff, Error.isNotational, not_escapes_ok]

theorem not_escapes_takeRepeatEnd : ¬ Escapes reading.takeRepeatEnd := by
  rw [Reading.takeRepeatEnd]
  cases reading.drafts <;> simp [escapes_error_iff, Error.isNotational, not_escapes_ok]

/-- Taking a token escapes just for a number. -/
theorem escapes_take_iff : Escapes (reading.take defaultTicks token) ↔
    (reading.role token = .number ∧ IsUnreadable token) ∨
      (reading.role token = .bar ∧ ∃ spelling : Spelling,
        spelling.IsPlain ∧ spelling.token = token ∧ spelling.HasUnreadableLength) := by
  rw [Reading.take_eq_of_role]
  cases hrole : reading.role token with
  | number => simp [escapes_takeNumber_iff]
  | opening => simp [not_escapes_takeBracket]
  | closing => simp [not_escapes_takeClosing]
  | repeatStart => simp [not_escapes_ok]
  | repeatEnd => simp [not_escapes_takeRepeatEnd]
  | bar =>
    simp only [reduceCtorEq, false_and, false_or, true_and]
    rw [Reading.takeBar, escapes_map_iff]
    constructor
    · intro hescapes
      obtain ⟨spelling, hplain, rfl⟩ := Spelling.exists_isPlain token
      exact ⟨spelling, hplain, rfl, (escapes_ofToken_iff hplain).mp hescapes⟩
    · rintro ⟨spelling, hplain, rfl, hlength⟩
      exact (escapes_ofToken_iff hplain).mpr hlength

/-- What is missing at the end, and what is wrong with a bar, are errors of the notation. -/
theorem not_escapes_finish : ¬ Escapes reading.finish := by
  rw [Reading.finish]
  split_ifs
  · simp [escapes_error_iff, Error.isNotational]
  · simp [escapes_error_iff, Error.isNotational]
  · rw [escapes_mapM_iff]
    rintro ⟨before, draft, after, -, -, hdraft⟩
    rw [Draft.toBar] at hdraft
    cases hbar : Bar.ofMarkers draft.id draft.ticks draft.markers draft.variation with
    | error error =>
      rw [hbar] at hdraft
      obtain ⟨_, ⟨⟩, herror⟩ := hdraft
      cases herror
    | ok bar =>
      rw [hbar] at hdraft
      exact not_escapes_ok hdraft

/-- A failure is an error of the notation, unless the first token that is not taken fails for a
number that cannot be read. -/
theorem parse_escapes_iff_failsOnNumber (text : String) (defaultTicks : Int)
    (h : 0 < defaultTicks) :
    (∃ error, parse text defaultTicks = .error error ∧ error.isNotational = false) ↔
      FailsOnNumber (tokens text.toList) defaultTicks := by
  have hrun : Escapes ((tokens text.toList).foldlM (Reading.take defaultTicks) .start) ↔
      FailsOnNumber (tokens text.toList) defaultTicks := by
    simp only [escapes_foldlM_iff, escapes_take_iff, FailsOnNumber]
  change Escapes (parse text defaultTicks) ↔ _
  rw [parse_of_pos h, barsOfTokens, ← hrun]
  cases (tokens text.toList).foldlM (Reading.take defaultTicks) .start with
  | error error => simp only [escapes_error_iff]
  | ok reading => exact iff_of_false not_escapes_finish not_escapes_ok

/-- A superscript denotes a digit, and is no number: the second bar fails for it. -/
theorem parse_superscript :
    parse "A B=²" 960 = .error (.numeral (.malformed 10 ['²'])) ∧
      FailsOnNumber [['A'], ['B', '=', '²']] 960 := by
  have hfails : parse "A B=²" 960 = .error (.numeral (.malformed 10 ['²'])) := by rfl
  have htokens : tokens "A B=²".toList = [['A'], ['B', '=', '²']] := by decide
  rw [← htokens]
  exact ⟨hfails, (parse_escapes_iff_failsOnNumber "A B=²" 960 (by decide)).mp ⟨_, hfails, rfl⟩⟩

/-- Not every failure is an error of the notation. -/
theorem exists_parse_not_isNotational :
    ¬ ∀ (text : String) (defaultTicks : Int), 0 < defaultTicks →
      ∀ error, parse text defaultTicks = .error error → error.isNotational = true := by
  intro hall
  have hfails : parse "A=²" 960 = .error (.numeral (.malformed 10 ['²'])) := by rfl
  exact absurd (hall "A=²" 960 (by decide) _ hfails) (by decide)

end ScoreRepeats.Notation
