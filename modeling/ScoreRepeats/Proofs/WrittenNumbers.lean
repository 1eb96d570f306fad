import Mathlib.Data.List.Basic
import Mathlib.Data.List.TakeWhile
import ScoreRepeats.Number.Numeral

/-!
# Written numbers

A number is written in decimal digits of any script, with leading zeros or without, and no longer
than a numeral may be (`IsWritten`). A text of characters that denote digits is read just if it
writes a number in this sense (`read_eq_ok_iff`): a superscript, say, denotes a digit, but no number
is written with it. The usual writing of a number is among those that are read
(`isWritten_toDigits`).
-/

set_option autoImplicit false
set_option relaxedAutoImplicit false

namespace ScoreRepeats

/-- What is joined has the characters of its parts, and if there are two or more those of the
separator. -/
theorem mem_intercalate_iff {separator : List Char} {texts : List (List Char)} {char : Char} :
    char ∈ separator.intercalate texts ↔
      (char ∈ separator ∧ 1 < texts.length) ∨ ∃ text ∈ texts, char ∈ text := by
  induction texts with
  | nil => simp
  | cons first rest ih =>
    cases rest with
    | nil => simp
    | cons second more =>
      have hparts : (∃ text ∈ first :: second :: more, char ∈ text) ↔
          char ∈ first ∨ ∃ text ∈ second :: more, char ∈ text := by
        rw [List.exists_mem_cons_iff]
      rw [List.intercalate_cons_cons, List.mem_append, List.mem_append, ih, hparts]
      simp only [List.length_cons]
      constructor
      · rintro ((hfirst | hseparator) | ⟨hseparator, -⟩ | hrest)
        · exact .inr (.inl hfirst)
        · exact .inl ⟨hseparator, by omega⟩
        · exact .inl ⟨hseparator, by omega⟩
        · exact .inr (.inr hrest)
      · rintro (⟨hseparator, -⟩ | hfirst | hrest)
        · exact .inl (.inr hseparator)
        · exact .inl (.inl hfirst)
        · exact .inr (.inr hrest)

namespace Text

/-- The pieces of a text between separators are those of the library. -/
theorem splitAt_eq_splitOn (separator : Char) (text : List Char) :
    splitAt separator text = text.splitOn separator := by
  induction text with
  | nil => rfl
  | cons char rest ih =>
    rw [List.splitOn, List.splitOnP_cons_eq_if_modifyHead, ← List.splitOn, ← ih]
    by_cases hseparator : char = separator
    · simp [splitAt, hseparator]
    · simp only [splitAt, hseparator, beq_iff_eq, if_false]
      cases hpieces : splitAt separator rest with
      | nil => exact absurd hpieces (splitAt_ne_nil separator rest)
      | cons piece pieces => rfl

/-- The pieces of a text, joined again, are the text. -/
theorem intercalate_splitAt (separator : Char) (text : List Char) :
    [separator].intercalate (splitAt separator text) = text := by
  rw [splitAt_eq_splitOn, List.intercalate_splitOn]

/-- A separator stands in none of the pieces that it separates. -/
theorem not_mem_of_mem_splitAt {separator : Char} {text piece : List Char}
    (h : piece ∈ splitAt separator text) : separator ∉ piece := by
  induction text generalizing piece with
  | nil =>
    rw [splitAt, List.mem_singleton] at h
    simp [h]
  | cons char rest ih =>
    rw [splitAt] at h
    split_ifs at h with hseparator
    · rcases List.mem_cons.mp h with rfl | hrest
      · exact List.not_mem_nil
      · exact ih hrest
    · cases hpieces : splitAt separator rest with
      | nil => exact absurd hpieces (splitAt_ne_nil separator rest)
      | cons first pieces =>
        rw [hpieces] at h ih
        rcases List.mem_cons.mp h with rfl | hrest
        · rw [List.mem_cons, not_or]
          exact ⟨Ne.symm hseparator, ih List.mem_cons_self⟩
        · exact ih (List.mem_cons_of_mem first hrest)

/-- The codes of the blanks. -/
def blankCodes : List Nat :=
  List.range' 0x09 5 ++ List.range' 0x1c 5 ++ [0x85, 0xa0, 0x1680] ++ List.range' 0x2000 11 ++
    [0x2028, 0x2029, 0x202f, 0x205f, 0x3000]

theorem isBlank_iff {char : Char} : isBlank char = true ↔ char.toNat ∈ blankCodes := by
  simp [isBlank, blankCodes, List.mem_range'_1]
  omega

/-- No blank denotes a digit. -/
theorem isDigit_eq_false_of_isBlank {char : Char} (h : isBlank char = true) :
    isDigit char = false := by
  have hall : ∀ code ∈ blankCodes, isDigit (Char.ofNat code) = false := by decide
  have hchar := hall char.toNat (isBlank_iff.mp h)
  rwa [Char.ofNat_toNat] at hchar

/-- A decimal digit denotes a digit. -/
theorem isDigit_of_isDecimal {char : Char} (h : isDecimal char = true) : isDigit char = true := by
  rw [isDigit, h, Bool.true_or]

/-- The value of one of the digits from zero to nine that are in use everywhere. -/
theorem decimalValue?_of_isDigit {char : Char} (h : char.isDigit = true) :
    decimalValue? char = some (char.toNat - '0'.toNat) := by
  have hcode : 48 ≤ char.toNat ∧ char.toNat ≤ 57 := by
    simpa [Char.isDigit, UInt32.le_iff_toNat_le] using h
  have hfind : decimalZeros.find? (fun first ↦ first ≤ char.toNat && char.toNat < first + 10) =
      some 0x30 := by
    refine List.find?_cons_of_pos ?_
    simp
    omega
  rw [decimalValue?, hfind]
  rfl

end Text

namespace Numeral

variable {text : List Char} {number : Nat}

/-- A text writes a number in decimal digits, no more of them than a numeral may have. -/
structure IsWritten (text : List Char) (number : Nat) : Prop where
  nonempty : text ≠ []
  decimal : ∀ char ∈ text, Text.isDecimal char = true
  short : text.length ≤ maxDigits
  value : valueOf text = number

instance : Decidable (IsWritten text number) :=
  decidable_of_iff (text ≠ [] ∧ text.all Text.isDecimal = true ∧ text.length ≤ maxDigits ∧
      valueOf text = number) <| by
    rw [List.all_eq_true]
    exact ⟨fun ⟨hne, hdecimal, hshort, hvalue⟩ ↦ ⟨hne, hdecimal, hshort, hvalue⟩,
      fun ⟨hne, hdecimal, hshort, hvalue⟩ ↦ ⟨hne, hdecimal, hshort, hvalue⟩⟩

/-- A text writes one number at most. -/
theorem IsWritten.unique {other : Nat} (h : IsWritten text number) (hother : IsWritten text other) :
    number = other :=
  h.value.symm.trans hother.value

/-- A number is written in characters that denote digits. -/
theorem IsWritten.isDigits (h : IsWritten text number) : Text.isDigits text = true := by
  rw [Text.isDigits, Bool.and_eq_true, List.all_eq_true]
  refine ⟨?_, fun char hchar ↦ Text.isDigit_of_isDecimal (h.decimal char hchar)⟩
  simpa using h.nonempty

theorem isPadding_eq_false_of_isDigit {char : Char} (h : Text.isDigit char = true) :
    isPadding char = false := by
  rw [isPadding, Bool.and_eq_false_iff]
  refine .inl (Bool.eq_false_iff.mpr fun hblank ↦ ?_)
  rw [Text.isDigit_eq_false_of_isBlank hblank] at h
  cases h

/-- What denotes a digit is no padding and no sign. -/
theorem readSign_dropWhile_of_isDigits (h : Text.isDigits text = true) :
    readSign (text.dropWhile isPadding) = (1, text) := by
  rw [Text.isDigits, Bool.and_eq_true, List.all_eq_true] at h
  obtain ⟨hne, hall⟩ := h
  cases text with
  | nil => cases hne
  | cons first rest =>
    have hfirst : Text.isDigit first = true := hall first List.mem_cons_self
    have hpadding := isPadding_eq_false_of_isDigit hfirst
    rw [List.dropWhile_cons_of_neg (by simp [hpadding]), readSign]
    · rintro _ ⟨⟩
      exact absurd hfirst (by decide)
    · rintro _ ⟨⟩
      exact absurd hfirst (by decide)

/-- In a text of characters that denote digits there is no underscore. -/
theorem isInner_eq_isDecimal_of_isDigit {char : Char} (h : Text.isDigit char = true) :
    isInner char = Text.isDecimal char := by
  have hne : char ≠ '_' := by
    rintro rfl
    exact absurd h (by decide)
  simp [isInner, hne]

/-- Of decimal digits only their number can be wrong. -/
theorem read_of_decimal (hne : text ≠ []) (hdecimal : ∀ char ∈ text, Text.isDecimal char = true) :
    read text = if maxDigits < text.length then .error (.tooLong text.length)
      else .ok (valueOf text) := by
  have hdigits : Text.isDigits text = true := by
    rw [Text.isDigits, Bool.and_eq_true, List.all_eq_true]
    exact ⟨by simpa using hne, fun char hchar ↦ Text.isDigit_of_isDecimal (hdecimal char hchar)⟩
  have hinner : ∀ char ∈ text, isInner char = true := fun char hchar ↦ by
    rw [isInner, hdecimal char hchar, Bool.true_or]
  have hsplit : Text.splitAt '_' text = [text] := by
    rw [Text.splitAt_eq_splitOn, List.splitOn_eq_singleton]
    exact fun hmem ↦ absurd (hdecimal _ hmem) (by decide)
  have hempty : [text].any List.isEmpty = false := by simpa using hne
  rw [read, readSign_dropWhile_of_isDigits hdigits]
  dsimp only
  rw [List.takeWhile_eq_self_iff.mpr hinner, List.dropWhile_eq_nil_iff.mpr hinner, hsplit, hempty]
  simp

/-- A text of digits is not read if one of them is not decimal. -/
theorem read_ne_ok_of_not_decimal (h : Text.isDigits text = true) {char : Char}
    (hmem : char ∈ text) (hlonely : ¬ Text.isDecimal char = true) (result : Int) :
    read text ≠ .ok result := by
  have hsign := readSign_dropWhile_of_isDigits h
  rw [Text.isDigits, Bool.and_eq_true, List.all_eq_true] at h
  have hrest : ¬ (text.dropWhile isInner).all isPadding = true := by
    cases hdrop : text.dropWhile isInner with
    | nil =>
      have hinner := List.dropWhile_eq_nil_iff.mp hdrop char hmem
      rw [isInner_eq_isDecimal_of_isDigit (h.2 char hmem)] at hinner
      exact absurd hinner hlonely
    | cons first rest =>
      have hfirst : first ∈ text := List.dropWhile_subset _ (hdrop ▸ List.mem_cons_self)
      simp [isPadding_eq_false_of_isDigit (h.2 first hfirst)]
  intro hread
  rw [read, hsign] at hread
  dsimp only at hread
  split_ifs at hread

/-- A text of characters that denote digits is read just if it writes a number. -/
theorem read_eq_ok_iff (h : Text.isDigits text = true) {result : Int} :
    read text = .ok result ↔ ∃ number : Nat, result = number ∧ IsWritten text number := by
  by_cases hdecimal : ∀ char ∈ text, Text.isDecimal char = true
  · have hne : text ≠ [] := by
      rintro rfl
      cases h
    rw [read_of_decimal hne hdecimal]
    constructor
    · intro hread
      split_ifs at hread with hlong
      exact ⟨valueOf text, (Except.ok.inj hread).symm, hne, hdecimal, Nat.not_lt.mp hlong, rfl⟩
    · rintro ⟨number, rfl, hwritten⟩
      rw [if_neg (Nat.not_lt.mpr hwritten.short), hwritten.value]
  · constructor
    · intro hread
      obtain ⟨char, hmem, hlonely⟩ : ∃ char, ∃ _ : char ∈ text, ¬ Text.isDecimal char = true := by
        simpa only [not_forall] using hdecimal
      exact absurd hread (read_ne_ok_of_not_decimal h hmem hlonely result)
    · rintro ⟨number, -, hwritten⟩
      exact absurd hwritten.decimal hdecimal

/-- Leading zeros do not change a number. -/
theorem valueOf_zeros_append (count : Nat) (text : List Char) :
    valueOf (List.replicate count '0' ++ text) = valueOf text := by
  induction count with
  | zero => rfl
  | succ count ih =>
    calc valueOf ('0' :: (List.replicate count '0' ++ text))
        = valueOf (List.replicate count '0' ++ text) := rfl
      _ = valueOf text := ih

/-- The usual writing of a number is read, if it is not too long. -/
theorem isWritten_toDigits (number : Nat) (h : number < Nat.pow 10 maxDigits) :
    IsWritten (Nat.toDigits 10 number) number where
  nonempty := Nat.toDigits_ne_nil
  decimal char hchar := by
    have hdigit := Nat.isDigit_of_mem_toDigits (by decide) (by decide) hchar
    rw [Text.isDecimal, Text.decimalValue?_of_isDigit hdigit, Option.isSome_some]
  short := by
    -- For any bound, since the power of this one is too large to be evaluated.
    have hshort : ∀ count, 0 < count → number < Nat.pow 10 count →
        (Nat.toDigits 10 number).length ≤ count := fun count hcount hlt ↦
      (Nat.length_toDigits_le_iff (by decide) hcount).mpr hlt
    exact hshort maxDigits (by decide) h
  value := by
    calc valueOf (Nat.toDigits 10 number)
        = Nat.ofDigitChars 10 (Nat.toDigits 10 number) 0 := by
          refine List.foldl_ext _ _ _ fun value char hchar ↦ ?_
          have hdigit := Nat.isDigit_of_mem_toDigits (by decide) (by decide) hchar
          rw [Text.decimalValue?_of_isDigit hdigit, Option.getD_some]
      _ = number := Nat.ofDigitChars_toDigits (by decide) (by decide)

end Numeral

end ScoreRepeats
