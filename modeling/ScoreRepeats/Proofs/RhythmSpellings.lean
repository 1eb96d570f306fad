import ScoreRepeats.Proofs.WrittenNumbers
import ScoreRepeats.Rhythm

/-!
# Spellings of a rhythm

A numeral is read from left to right: padding is passed over, then a sign, then digits with underscores
between them, and what is left must be padding again. So the texts that are read are those that can be
put together from such parts (`Numeral.read_eq_ok_iff_isLiteral`).

A rhythm is spelled as two numerals with a stroke between them (`Rhythm.IsSpelled`). The two sides of a
numeral are not treated alike: all blanks are removed from the ends of the whole text, but at the stroke
only padding is passed over, to which the information separators do not belong. Whichever spelling is
chosen, what is read depends on the two numbers alone (`Rhythm.parse_of_isSpelled`).
-/

set_option autoImplicit false
set_option relaxedAutoImplicit false

namespace ScoreRepeats

/-- Without the blanks at its two ends a text is what stands between them. -/
theorem Text.strip_append {before middle after : List Char}
    (hbefore : ∀ char ∈ before, isBlank char = true) (hafter : ∀ char ∈ after, isBlank char = true)
    (hfirst : ∃ char ∈ middle.head?, isBlank char = false)
    (hlast : ∃ char ∈ middle.getLast?, isBlank char = false) :
    strip (before ++ middle ++ after) = middle := by
  obtain ⟨first, hfirst, hsolid⟩ := hfirst
  obtain ⟨last, hlast, hsolid'⟩ := hlast
  have hleft : (before ++ middle ++ after).dropWhile isBlank = middle ++ after := by
    obtain ⟨rest, rfl⟩ := List.head?_eq_some_iff.mp hfirst
    rw [List.append_assoc, List.dropWhile_append_of_pos hbefore, List.cons_append,
      List.dropWhile_cons_of_neg (by simp [hsolid])]
  have hright : (middle ++ after).reverse.dropWhile isBlank = middle.reverse := by
    obtain ⟨rest, rfl⟩ := List.getLast?_eq_some_iff.mp hlast
    rw [List.reverse_append, List.dropWhile_append_of_pos (by simpa using hafter),
      List.reverse_append, List.reverse_singleton, List.singleton_append,
      List.dropWhile_cons_of_neg (by simp [hsolid'])]
  rw [strip, hleft, hright, List.reverse_reverse]

/-- A text is what is left without the blanks at its two ends, between these blanks. -/
theorem Text.exists_eq_append_strip (text : List Char) :
    ∃ before after, text = before ++ strip text ++ after ∧
      (∀ char ∈ before, isBlank char = true) ∧ ∀ char ∈ after, isBlank char = true := by
  refine ⟨text.takeWhile isBlank,
    ((text.dropWhile isBlank).reverse.takeWhile isBlank).reverse, ?_, ?_, ?_⟩
  · rw [strip, List.append_assoc, ← List.reverse_append, List.takeWhile_append_dropWhile,
      List.reverse_reverse, List.takeWhile_append_dropWhile]
  · exact fun char hchar ↦ List.mem_takeWhile_imp hchar
  · exact fun char hchar ↦ List.mem_takeWhile_imp (List.mem_reverse.mp hchar)

namespace Numeral

variable {text digits : List Char} {groups : List (List Char)} {char : Char} {number : Int}

/-! ### Literals -/

/-- What may stand in front of the digits of a numeral, and the factor that it means. -/
inductive IsSign : List Char → Int → Prop
  | none : IsSign [] 1
  | plus : IsSign ['+'] 1
  | minus : IsSign ['-'] (-1)

/-- Groups of decimal digits that can be written in a numeral with an underscore between any two. -/
structure IsGrouped (groups : List (List Char)) : Prop where
  nonempty : groups ≠ []
  each : ∀ group ∈ groups, group ≠ []
  decimal : ∀ group ∈ groups, ∀ char ∈ group, Text.isDecimal char = true
  short : groups.flatten.length ≤ maxDigits

instance : Decidable (IsGrouped groups) :=
  decidable_of_iff (groups ≠ [] ∧ (∀ group ∈ groups, group ≠ []) ∧
      (groups.all fun group ↦ group.all Text.isDecimal) = true ∧
      groups.flatten.length ≤ maxDigits) <| by
    simp only [List.all_eq_true]
    exact ⟨fun ⟨hne, heach, hdecimal, hshort⟩ ↦ ⟨hne, heach, hdecimal, hshort⟩,
      fun ⟨hne, heach, hdecimal, hshort⟩ ↦ ⟨hne, heach, hdecimal, hshort⟩⟩

/-- A text denotes a number by grouped digits with or without a sign in front. -/
inductive IsBare : List Char → Int → Prop
  | intro {sign : List Char} {factor : Int} {groups : List (List Char)} (hsign : IsSign sign factor)
    (hgroups : IsGrouped groups) :
    IsBare (sign ++ ['_'].intercalate groups) (factor * valueOf groups.flatten)

/-- A text denotes a number, with characters of one class before and of another behind. -/
def IsLiteral (isBefore isBehind : Char → Bool) (text : List Char) (number : Int) : Prop :=
  ∃ before bare behind, text = before ++ bare ++ behind ∧ (∀ char ∈ before, isBefore char = true) ∧
    IsBare bare number ∧ ∀ char ∈ behind, isBehind char = true

/-- A digit, an underscore or a sign. -/
def isBareChar (char : Char) : Bool := isInner char || char == '+' || char == '-'

/-- No blank is a part of a numeral without padding. -/
theorem isBareChar_eq_false_of_isBlank (h : Text.isBlank char = true) : isBareChar char = false := by
  have hdigit := Text.isDigit_eq_false_of_isBlank h
  have hother : ∀ other : Char, Text.isBlank other = false → char ≠ other := by
    rintro other hsolid rfl
    rw [h] at hsolid
    cases hsolid
  rw [isBareChar, isInner, (Bool.or_eq_false_iff.mp hdigit).1]
  simp [hother '_' (by decide), hother '+' (by decide), hother '-' (by decide)]

theorem isBlank_of_isPadding (h : isPadding char = true) : Text.isBlank char = true :=
  (Bool.and_eq_true_iff.mp h).1

theorem isInner_eq_false_of_isPadding (h : isPadding char = true) : isInner char = false := by
  have hbare := isBareChar_eq_false_of_isBlank (isBlank_of_isPadding h)
  simp only [isBareChar, Bool.or_eq_false_iff] at hbare
  exact hbare.1.1

/-- Groups of digits are written in digits and underscores. -/
theorem IsGrouped.isInner (h : IsGrouped groups) (hchar : char ∈ ['_'].intercalate groups) :
    isInner char = true := by
  rcases mem_intercalate_iff.mp hchar with ⟨hunderscore, -⟩ | ⟨group, hgroup, hmem⟩
  · rw [List.mem_singleton.mp hunderscore]
    rfl
  · rw [Numeral.isInner, h.decimal group hgroup char hmem, Bool.true_or]

/-- There is some digit. -/
theorem IsGrouped.intercalate_ne_nil (h : IsGrouped groups) : ['_'].intercalate groups ≠ [] := by
  obtain ⟨group, hgroup⟩ := List.exists_mem_of_ne_nil groups h.nonempty
  obtain ⟨char, hchar⟩ := List.exists_mem_of_ne_nil group (h.each group hgroup)
  exact List.ne_nil_of_mem (mem_intercalate_iff.mpr (.inr ⟨group, hgroup, hchar⟩))

theorem IsBare.isBareChar (h : IsBare text number) (hchar : char ∈ text) :
    isBareChar char = true := by
  obtain ⟨hsign, hgroups⟩ := h
  rcases List.mem_append.mp hchar with hchar | hchar
  · cases hsign with
    | none => cases hchar
    | plus =>
      rw [List.mem_singleton.mp hchar]
      rfl
    | minus =>
      rw [List.mem_singleton.mp hchar]
      rfl
  · rw [Numeral.isBareChar, hgroups.isInner hchar, Bool.true_or, Bool.true_or]

theorem IsBare.isBlank_eq_false (h : IsBare text number) (hchar : char ∈ text) :
    Text.isBlank char = false := by
  refine Bool.eq_false_iff.mpr fun hblank ↦ ?_
  have hnot := isBareChar_eq_false_of_isBlank hblank
  rw [h.isBareChar hchar] at hnot
  cases hnot

theorem IsBare.ne_nil (h : IsBare text number) : text ≠ [] := by
  obtain ⟨hsign, hgroups⟩ := h
  exact List.append_ne_nil_of_right_ne_nil _ hgroups.intercalate_ne_nil

/-- A literal is one as well with more in front of it. -/
theorem IsLiteral.append_left {isBefore isBehind isWider : Char → Bool} {more : List Char}
    (h : IsLiteral isBefore isBehind text number)
    (hwider : ∀ char, isBefore char = true → isWider char = true)
    (hmore : ∀ char ∈ more, isWider char = true) :
    IsLiteral isWider isBehind (more ++ text) number := by
  obtain ⟨before, bare, behind, rfl, hbefore, hbare, hbehind⟩ := h
  refine ⟨more ++ before, bare, behind, by simp, List.forall_mem_append.mpr ⟨hmore, ?_⟩, hbare,
    hbehind⟩
  exact fun char hchar ↦ hwider char (hbefore char hchar)

/-- A literal is one as well with more behind it. -/
theorem IsLiteral.append_right {isBefore isBehind isWider : Char → Bool} {more : List Char}
    (h : IsLiteral isBefore isBehind text number)
    (hwider : ∀ char, isBehind char = true → isWider char = true)
    (hmore : ∀ char ∈ more, isWider char = true) :
    IsLiteral isBefore isWider (text ++ more) number := by
  obtain ⟨before, bare, behind, rfl, hbefore, hbare, hbehind⟩ := h
  refine ⟨before, bare, behind ++ more, by simp, hbefore, hbare,
    List.forall_mem_append.mpr ⟨?_, hmore⟩⟩
  exact fun char hchar ↦ hwider char (hbehind char hchar)

/-- A literal has no characters but those of its parts. -/
theorem IsLiteral.not_mem {isBefore isBehind : Char → Bool}
    (h : IsLiteral isBefore isBehind text number) (hbefore : isBefore char = false)
    (hbare : isBareChar char = false) (hbehind : isBehind char = false) : char ∉ text := by
  obtain ⟨before, bare, behind, rfl, hallBefore, hisBare, hallBehind⟩ := h
  intro hchar
  rcases List.mem_append.mp hchar with hchar | hchar
  · rcases List.mem_append.mp hchar with hchar | hchar
    · exact absurd (hallBefore char hchar) (Bool.eq_false_iff.mp hbefore)
    · exact absurd (hisBare.isBareChar hchar) (Bool.eq_false_iff.mp hbare)
  · exact absurd (hallBehind char hchar) (Bool.eq_false_iff.mp hbehind)

/-! ### Reading a literal -/

/-- A sign is read off in front of digits. -/
theorem readSign_append {sign rest : List Char} {factor : Int} (hsign : IsSign sign factor)
    (hdigit : isInner char = true) :
    readSign (sign ++ char :: rest) = (factor, char :: rest) := by
  cases hsign with
  | none =>
    rw [List.nil_append, readSign]
    · rintro _ ⟨⟩
      exact absurd hdigit (by decide)
    · rintro _ ⟨⟩
      exact absurd hdigit (by decide)
  | plus => rfl
  | minus => rfl

/-- What is read off as a sign stands in front of the rest. -/
theorem exists_isSign (text : List Char) :
    ∃ sign, IsSign sign (readSign text).1 ∧ text = sign ++ (readSign text).2 := by
  unfold readSign
  split
  · exact ⟨['-'], .minus, rfl⟩
  · exact ⟨['+'], .plus, rfl⟩
  · exact ⟨[], .none, rfl⟩

/-- Padding in front of a bare numeral is passed over. -/
theorem dropWhile_isPadding_append {before rest : List Char}
    (hbefore : ∀ char ∈ before, isPadding char = true) (hbare : IsBare text number) :
    (before ++ text ++ rest).dropWhile isPadding = text ++ rest := by
  obtain ⟨first, more, rfl⟩ := List.exists_cons_of_ne_nil hbare.ne_nil
  have hfirst : ¬ isPadding first = true := fun hpadding ↦ by
    have hsolid := hbare.isBlank_eq_false List.mem_cons_self
    rw [isBlank_of_isPadding hpadding] at hsolid
    cases hsolid
  rw [List.append_assoc, List.dropWhile_append_of_pos hbefore, List.cons_append,
    List.dropWhile_cons_of_neg hfirst]

/-- The digits of a literal are read up to the padding behind them. -/
theorem span_isInner_append {behind : List Char} (hgroups : IsGrouped groups)
    (hbehind : ∀ char ∈ behind, isPadding char = true) :
    (['_'].intercalate groups ++ behind).takeWhile isInner = ['_'].intercalate groups ∧
      (['_'].intercalate groups ++ behind).dropWhile isInner = behind := by
  have hinner : ∀ char ∈ ['_'].intercalate groups, isInner char = true := fun _ ↦ hgroups.isInner
  have hstop : ∀ first ∈ behind.head?, ¬ isInner first = true := fun first hfirst hdigit ↦ by
    have hnot := isInner_eq_false_of_isPadding (hbehind first (List.mem_of_head? hfirst))
    rw [hdigit] at hnot
    cases hnot
  rw [List.takeWhile_append_of_pos hinner, List.dropWhile_append_of_pos hinner]
  cases behind with
  | nil => exact ⟨List.append_nil _, rfl⟩
  | cons first rest =>
    have hfirst := hstop first rfl
    rw [List.takeWhile_cons_of_neg hfirst, List.dropWhile_cons_of_neg hfirst]
    exact ⟨List.append_nil _, rfl⟩

/-- Digits in groups are taken apart at the underscores. -/
theorem IsGrouped.splitAt_eq (h : IsGrouped groups) :
    Text.splitAt '_' (['_'].intercalate groups) = groups := by
  rw [Text.splitAt_eq_splitOn]
  refine List.splitOn_intercalate '_' (fun group hgroup hunderscore ↦ ?_) h.nonempty
  exact absurd (h.decimal group hgroup '_' hunderscore) (by decide)

/-- A literal between paddings is read. -/
theorem read_of_isLiteral (h : IsLiteral isPadding isPadding text number) :
    read text = .ok number := by
  obtain ⟨before, bare, behind, rfl, hbefore, hbare, hbehind⟩ := h
  have hdrop : (before ++ bare ++ behind).dropWhile isPadding = bare ++ behind :=
    dropWhile_isPadding_append hbefore hbare
  obtain @⟨sign, factor, groups, hsign, hgroups⟩ := hbare
  obtain ⟨htake, hrest⟩ := span_isInner_append hgroups hbehind
  have hsigned : readSign (sign ++ ['_'].intercalate groups ++ behind) =
      (factor, ['_'].intercalate groups ++ behind) := by
    obtain ⟨first, more, hdigits⟩ := List.exists_cons_of_ne_nil hgroups.intercalate_ne_nil
    have hfirst : isInner first = true := hgroups.isInner (hdigits ▸ List.mem_cons_self)
    rw [hdigits, List.append_assoc, List.cons_append, readSign_append hsign hfirst]
  have heach : groups.any List.isEmpty = false := by
    simpa [List.any_eq_false] using hgroups.each
  rw [read, hdrop, hsigned]
  dsimp only
  rw [htake, hrest, hgroups.splitAt_eq, heach, if_neg Bool.false_ne_true,
    if_neg (Nat.not_lt.mpr hgroups.short), if_pos (List.all_eq_true.mpr hbehind)]

/-- Where no piece between underscores is empty, the pieces of a row of digits and underscores are
groups of digits. -/
theorem isGrouped_splitAt (hinner : ∀ char ∈ digits, isInner char = true)
    (heach : (Text.splitAt '_' digits).any List.isEmpty = false)
    (hshort : (Text.splitAt '_' digits).flatten.length ≤ maxDigits) :
    IsGrouped (Text.splitAt '_' digits) where
  nonempty := Text.splitAt_ne_nil '_' digits
  each := by simpa [List.any_eq_false] using heach
  decimal group hgroup char hchar := by
    have hmem : char ∈ digits := by
      rw [← Text.intercalate_splitAt '_' digits]
      exact mem_intercalate_iff.mpr (.inr ⟨group, hgroup, hchar⟩)
    have hother : char ≠ '_' := by
      rintro rfl
      exact Text.not_mem_of_mem_splitAt hgroup hchar
    simpa [isInner, hother] using hinner char hmem
  short := hshort

/-- What is read is a literal between paddings. -/
theorem isLiteral_of_read (h : read text = .ok number) :
    IsLiteral isPadding isPadding text number := by
  obtain ⟨sign, hsign, hunpadded⟩ := exists_isSign (text.dropWhile isPadding)
  rw [read] at h
  dsimp only at h
  generalize readSign (text.dropWhile isPadding) = signed at h hsign hunpadded
  obtain ⟨factor, unsigned⟩ := signed
  dsimp only at h hsign hunpadded
  split_ifs at h with heach hlong hbehind
  cases h
  have hgroups := isGrouped_splitAt (fun char hchar ↦ List.mem_takeWhile_imp hchar)
    (Bool.eq_false_iff.mpr heach) (Nat.not_lt.mp hlong)
  refine ⟨text.takeWhile isPadding, _, unsigned.dropWhile isInner, ?_,
    fun char hchar ↦ List.mem_takeWhile_imp hchar, .intro hsign hgroups, List.all_eq_true.mp hbehind⟩
  rw [Text.intercalate_splitAt, List.append_assoc, List.append_assoc,
    List.takeWhile_append_dropWhile, ← hunpadded, List.takeWhile_append_dropWhile]

/-- A text is read just if it is a literal between paddings. -/
theorem read_eq_ok_iff_isLiteral :
    read text = .ok number ↔ IsLiteral isPadding isPadding text number :=
  ⟨isLiteral_of_read, read_of_isLiteral⟩

/-- The usual writing of a number is a literal without anything around it. -/
theorem isLiteral_toDigits {isBefore isBehind : Char → Bool} {value : Nat}
    (hlimit : value < Nat.pow 10 maxDigits) :
    IsLiteral isBefore isBehind (Nat.toDigits 10 value) value := by
  have hwritten := isWritten_toDigits value hlimit
  have hgroups : IsGrouped [Nat.toDigits 10 value] :=
    ⟨List.cons_ne_nil _ _, List.forall_mem_singleton.mpr hwritten.nonempty,
      List.forall_mem_singleton.mpr hwritten.decimal, by simpa using hwritten.short⟩
  have hbare : IsBare (Nat.toDigits 10 value) value := by
    have hintro := IsBare.intro .none hgroups
    simpa [hwritten.value] using hintro
  exact ⟨[], _, [], by simp, by simp, hbare, by simp⟩

end Numeral

namespace Rhythm

variable {text : String} {numerator denominator : Int}

/-! ### Numbers of a rhythm -/

/-- Two numbers make a rhythm just if they are those of it. -/
theorem make_eq_ok_iff {rhythm : Rhythm} :
    make numerator denominator = .ok rhythm ↔
      (rhythm.numerator : Int) = numerator ∧ (rhythm.denominator : Int) = denominator := by
  constructor
  · intro h
    unfold make at h
    split_ifs at h with hrange hknown
    cases h
    have hpositive : 0 < denominator.toNat := by
      have hall : ∀ number ∈ denominators, 0 < number := by decide
      exact hall _ hknown
    obtain ⟨hleast, -⟩ := hrange
    have hone : 1 ≤ numerator.toNat := hleast
    constructor <;> dsimp only <;> omega
  · rintro ⟨rfl, rfl⟩
    unfold make
    rw [dif_pos (by simpa using rhythm.numerator_range),
      dif_pos (by simpa using rhythm.denominator_mem)]
    rfl

theorem numerator_range_iff :
    (minNumerator ≤ numerator.toNat ∧ numerator.toNat ≤ maxNumerator) ↔
      1 ≤ numerator ∧ numerator ≤ 99 := by
  unfold minNumerator maxNumerator
  omega

theorem toNat_mem_denominators_iff :
    denominator.toNat ∈ denominators ↔ denominator ∈ ([2, 4, 8, 16, 32, 64] : List Int) := by
  simp only [denominators, List.mem_cons, List.not_mem_nil, or_false]
  omega

/-- There is a rhythm of from 1 to 99 beats of one of six note values. -/
theorem exists_make_eq_ok_iff :
    (∃ rhythm, make numerator denominator = .ok rhythm) ↔
      (1 ≤ numerator ∧ numerator ≤ 99) ∧ denominator ∈ ([2, 4, 8, 16, 32, 64] : List Int) := by
  rw [← numerator_range_iff, ← toNat_mem_denominators_iff]
  unfold make
  split_ifs with hrange hknown
  · exact iff_of_true ⟨_, rfl⟩ ⟨hrange, hknown⟩
  · exact iff_of_false nofun fun h ↦ hknown h.2
  · exact iff_of_false nofun fun h ↦ hrange h.1

/-- The number of beats is refused before the note value is looked at. -/
theorem make_eq_numerator_error (h : ¬ (1 ≤ numerator ∧ numerator ≤ 99)) :
    make numerator denominator = .error (.numerator numerator) := by
  rw [← numerator_range_iff] at h
  rw [make, dif_neg h]

theorem make_eq_denominator_error (hrange : 1 ≤ numerator ∧ numerator ≤ 99)
    (h : denominator ∉ ([2, 4, 8, 16, 32, 64] : List Int)) :
    make numerator denominator = .error (.denominator denominator) := by
  rw [← numerator_range_iff] at hrange
  rw [← toNat_mem_denominators_iff] at h
  rw [make, dif_pos hrange, dif_neg h]

/-! ### Two numerals with a stroke between them -/

/-- A text spells a rhythm of these numbers: the numeral of the one, a stroke and the numeral of the
other. Blanks may stand at the ends of the text, and padding on both sides of the stroke. -/
def IsSpelled (text : List Char) (numerator denominator : Int) : Prop :=
  ∃ left right, text = left ++ '/' :: right ∧
    Numeral.IsLiteral Text.isBlank Numeral.isPadding left numerator ∧
    Numeral.IsLiteral Numeral.isPadding Text.isBlank right denominator

/-- What is spelled is read as two numbers. -/
theorem parse_of_isSpelled (h : IsSpelled text.toList numerator denominator) :
    parse text = make numerator denominator := by
  obtain ⟨_, _, htext, ⟨before, left, padding, rfl, hbefore, hleft, hpadding⟩,
    ⟨padding', right, behind, rfl, hpadding', hright, hbehind⟩⟩ := h
  have hnumerator :
      Numeral.IsLiteral Numeral.isPadding Numeral.isPadding (left ++ padding) numerator :=
    ⟨[], left, padding, by simp, by simp, hleft, hpadding⟩
  have hdenominator :
      Numeral.IsLiteral Numeral.isPadding Numeral.isPadding (padding' ++ right) denominator :=
    ⟨padding', right, [], by simp, hpadding', hright, by simp⟩
  have hstrip : Text.strip text.toList = left ++ padding ++ '/' :: (padding' ++ right) := by
    obtain ⟨first, more, rfl⟩ := List.exists_cons_of_ne_nil hleft.ne_nil
    obtain ⟨fewer, last, rfl⟩ := (List.eq_nil_or_concat right).resolve_left hright.ne_nil
    rw [List.concat_eq_append] at hright ⊢
    have hends : Text.strip (before ++
        (first :: more ++ padding ++ '/' :: (padding' ++ (fewer ++ [last]))) ++ behind) =
          first :: more ++ padding ++ '/' :: (padding' ++ (fewer ++ [last])) := by
      refine Text.strip_append hbefore hbehind ⟨first, rfl, ?_⟩ ⟨last, ?_, ?_⟩
      · exact hleft.isBlank_eq_false List.mem_cons_self
      · exact List.getLast?_eq_some_iff.mpr
          ⟨first :: more ++ padding ++ '/' :: (padding' ++ fewer), by simp⟩
      · exact hright.isBlank_eq_false List.mem_concat_self
    rw [htext, ← hends]
    congr 1
    simp
  have hsplit : Text.splitAt '/' (Text.strip text.toList) = [left ++ padding, padding' ++ right] := by
    have hstroke : ∀ piece ∈ [left ++ padding, padding' ++ right], '/' ∉ piece := by
      refine List.forall_mem_cons.mpr ⟨?_, List.forall_mem_singleton.mpr ?_⟩
      · exact hnumerator.not_mem (by decide) (by decide) (by decide)
      · exact hdenominator.not_mem (by decide) (by decide) (by decide)
    have hjoined : ['/'].intercalate [left ++ padding, padding' ++ right] =
        left ++ padding ++ '/' :: (padding' ++ right) := by
      simp
    rw [hstrip, ← hjoined, Text.splitAt_eq_splitOn,
      List.splitOn_intercalate '/' hstroke (List.cons_ne_nil _ _)]
  rw [parse, hsplit]
  dsimp only
  rw [Numeral.read_eq_ok_iff_isLiteral.mpr hnumerator,
    Numeral.read_eq_ok_iff_isLiteral.mpr hdenominator]

/-- What is not refused for its form is spelled. -/
theorem exists_isSpelled (h : parse text ≠ .error (.form text)) :
    ∃ numerator denominator, IsSpelled text.toList numerator denominator := by
  unfold parse at h
  split at h
  · rename_i left right hsplit
    split at h
    · rename_i numerator denominator hnumerator hdenominator
      obtain ⟨before, behind, htext, hbefore, hbehind⟩ := Text.exists_eq_append_strip text.toList
      have hjoined : Text.strip text.toList = left ++ '/' :: right := by
        rw [← Text.intercalate_splitAt '/' (Text.strip text.toList), hsplit]
        simp
      refine ⟨numerator, denominator, before ++ left, right ++ behind, ?_, ?_, ?_⟩
      · rw [htext, hjoined]
        simp
      · exact (Numeral.read_eq_ok_iff_isLiteral.mp hnumerator).append_left
          (fun _ ↦ Numeral.isBlank_of_isPadding) hbefore
      · exact (Numeral.read_eq_ok_iff_isLiteral.mp hdenominator).append_right
          (fun _ ↦ Numeral.isBlank_of_isPadding) hbehind
    · exact absurd rfl h
  · exact absurd rfl h

/-- In a spelling there is a single stroke. -/
theorem IsSpelled.count_stroke {spelling : List Char}
    (h : IsSpelled spelling numerator denominator) : spelling.count '/' = 1 := by
  obtain ⟨left, right, rfl, hleft, hright⟩ := h
  have hnotLeft : '/' ∉ left := hleft.not_mem (by decide) (by decide) (by decide)
  have hnotRight : '/' ∉ right := hright.not_mem (by decide) (by decide) (by decide)
  rw [List.count_append, List.count_cons_self, List.count_eq_zero_of_not_mem hnotLeft,
    List.count_eq_zero_of_not_mem hnotRight]

/-- A text is refused for its form just if it spells no two numbers. -/
theorem parse_eq_form_error_iff :
    parse text = .error (.form text) ↔
      ∀ numerator denominator, ¬ IsSpelled text.toList numerator denominator := by
  constructor
  · intro hrefused numerator denominator h
    rw [parse_of_isSpelled h, make] at hrefused
    split_ifs at hrefused <;> cases hrefused
  · intro hnone
    by_contra hread
    obtain ⟨numerator, denominator, h⟩ := exists_isSpelled hread
    exact hnone numerator denominator h

/-- A text is read as a rhythm just if it spells the numbers of it. -/
theorem exists_parse_eq_ok_iff :
    (∃ rhythm, parse text = .ok rhythm ∧ (rhythm.numerator : Int) = numerator ∧
        (rhythm.denominator : Int) = denominator) ↔
      IsSpelled text.toList numerator denominator ∧ (1 ≤ numerator ∧ numerator ≤ 99) ∧
        denominator ∈ ([2, 4, 8, 16, 32, 64] : List Int) := by
  constructor
  · rintro ⟨rhythm, hparse, hnumbers⟩
    have hread : parse text ≠ .error (.form text) := by
      rw [hparse]
      nofun
    obtain ⟨first, second, h⟩ := exists_isSpelled hread
    have hmake := parse_of_isSpelled h
    rw [hparse] at hmake
    obtain ⟨rfl, rfl⟩ := make_eq_ok_iff.mp hmake.symm
    obtain ⟨rfl, rfl⟩ := hnumbers
    exact ⟨h, exists_make_eq_ok_iff.mp ⟨rhythm, hmake.symm⟩⟩
  · rintro ⟨h, hrange⟩
    obtain ⟨rhythm, hmake⟩ := exists_make_eq_ok_iff.mpr hrange
    exact ⟨rhythm, (parse_of_isSpelled h).trans hmake, make_eq_ok_iff.mp hmake⟩

/-- The text of a rhythm spells its numbers. -/
theorem isSpelled_text (rhythm : Rhythm) :
    IsSpelled rhythm.text.toList rhythm.numerator rhythm.denominator := by
  -- For any bound, since the power of this one is too large to be evaluated.
  have hshort : ∀ count, 2 ≤ count → ∀ number < 100, number < Nat.pow 10 count :=
    fun count hcount number hnumber ↦
      Nat.lt_of_lt_of_le hnumber (Nat.pow_le_pow_right (n := 10) (by decide) hcount)
  have hnumerator : rhythm.numerator < 100 := Nat.lt_succ_of_le rhythm.numerator_range.2
  have hdenominator : rhythm.denominator < 100 := by
    have hall : ∀ number ∈ denominators, number < 100 := by decide
    exact hall _ rhythm.denominator_mem
  refine ⟨Nat.toDigits 10 rhythm.numerator, Nat.toDigits 10 rhythm.denominator, ?_,
    Numeral.isLiteral_toDigits (hshort _ (by decide) _ hnumerator),
    Numeral.isLiteral_toDigits (hshort _ (by decide) _ hdenominator)⟩
  simp only [text, String.toList_append]
  simp
  rfl

/-- Just the texts that spell a number from 1 to 99 and one of six note values, with one stroke between
them, are read as a rhythm, and it has these numbers. Other texts that spell two numbers are refused for
the first that no rhythm has, and the rest for their form. So all spellings of the same numbers lead to
the same, and the text of a rhythm leads back to it. -/
theorem parse_eq_ok_iff_isSpelled :
    (∀ (text : String) (numerator denominator : Int),
      (∃ rhythm, parse text = .ok rhythm ∧ (rhythm.numerator : Int) = numerator ∧
          (rhythm.denominator : Int) = denominator) ↔
        IsSpelled text.toList numerator denominator ∧ (1 ≤ numerator ∧ numerator ≤ 99) ∧
          denominator ∈ ([2, 4, 8, 16, 32, 64] : List Int)) ∧
      (∀ text : String, parse text = .error (.form text) ↔
        ∀ numerator denominator, ¬ IsSpelled text.toList numerator denominator) ∧
      (∀ (text : String) (numerator denominator : Int),
        IsSpelled text.toList numerator denominator →
          text.toList.count '/' = 1 ∧
          (¬ (1 ≤ numerator ∧ numerator ≤ 99) → parse text = .error (.numerator numerator)) ∧
          (1 ≤ numerator ∧ numerator ≤ 99 →
            denominator ∉ ([2, 4, 8, 16, 32, 64] : List Int) →
              parse text = .error (.denominator denominator)) ∧
          ∀ other : String, IsSpelled other.toList numerator denominator →
            parse other = parse text) ∧
      ∀ rhythm : Rhythm, parse rhythm.text = .ok rhythm := by
  refine ⟨fun _ _ _ ↦ exists_parse_eq_ok_iff, fun _ ↦ parse_eq_form_error_iff,
    fun text numerator denominator h ↦ ⟨h.count_stroke, fun hnumerator ↦ ?_,
      fun hrange hdenominator ↦ ?_, fun other hother ↦ ?_⟩, fun rhythm ↦ ?_⟩
  · rw [parse_of_isSpelled h, make_eq_numerator_error hnumerator]
  · rw [parse_of_isSpelled h, make_eq_denominator_error hrange hdenominator]
  · rw [parse_of_isSpelled h, parse_of_isSpelled hother]
  · rw [parse_of_isSpelled rhythm.isSpelled_text, make_eq_ok_iff]
    exact ⟨rfl, rfl⟩

/-- A text with information separators at its ends, a sign, a leading zero, an underscore and digits of
another script is read as the text of the rhythm is. -/
theorem parse_threeFour :
    IsSpelled "\x1c +0_3 /\t\u0660\u0664\x1f".toList 3 4 ∧
      parse "\x1c +0_3 /\t\u0660\u0664\x1f" = .ok { numerator := 3, denominator := 4 } := by
  have hthree : Numeral.IsBare ['+', '0', '_', '3'] 3 :=
    @Numeral.IsBare.intro _ _ [['0'], ['3']] .plus (by decide)
  have hfour : Numeral.IsBare ['\u0660', '\u0664'] 4 :=
    @Numeral.IsBare.intro _ _ [['\u0660', '\u0664']] .none (by decide)
  have hspelled : IsSpelled "\x1c +0_3 /\t\u0660\u0664\x1f".toList 3 4 :=
    ⟨_, _, rfl,
      ⟨['\x1c', ' '], _, [' '], rfl, List.all_eq_true.mp rfl, hthree, List.all_eq_true.mp rfl⟩,
      ⟨['\t'], _, ['\x1f'], rfl, List.all_eq_true.mp rfl, hfour, List.all_eq_true.mp rfl⟩⟩
  obtain ⟨-, -, hspellings, htext⟩ := parse_eq_ok_iff_isSpelled
  have hrhythm := htext { numerator := 3, denominator := 4 }
  have hsame := (hspellings _ 3 4 (isSpelled_text { numerator := 3, denominator := 4 })).2.2.2
  exact ⟨hspelled, (hsame _ hspelled).trans hrhythm⟩

/-- The same with characters of one class on both sides of both numerals. -/
def IsEvenlySpelled (isAround : Char → Bool) (text : List Char) (numerator denominator : Int) :
    Prop :=
  ∃ left right, text = left ++ '/' :: right ∧ '/' ∉ left ∧ '/' ∉ right ∧
    Numeral.IsLiteral isAround isAround left numerator ∧
    Numeral.IsLiteral isAround isAround right denominator

/-- The spellings do not have characters of one class on both sides of both numerals: an information
separator may stand at the ends of the text, but not at the stroke. -/
theorem not_exists_parse_iff_isEvenlySpelled :
    ¬ ∃ isAround : Char → Bool, ∀ (text : String) (numerator denominator : Int),
      (∃ rhythm, parse text = .ok rhythm ∧ (rhythm.numerator : Int) = numerator ∧
          (rhythm.denominator : Int) = denominator) ↔
        IsEvenlySpelled isAround text.toList numerator denominator ∧
          (1 ≤ numerator ∧ numerator ≤ 99) ∧
          denominator ∈ ([2, 4, 8, 16, 32, 64] : List Int) := by
  rintro ⟨isAround, hread⟩
  cases hseparator : isAround '\x1c' with
  | true =>
    have hthree : Numeral.IsBare ['3'] 3 :=
      @Numeral.IsBare.intro _ _ [['3']] .none (by decide)
    have hfour : Numeral.IsBare ['4'] 4 :=
      @Numeral.IsBare.intro _ _ [['4']] .none (by decide)
    have hspelled : IsEvenlySpelled isAround "3\x1c/4".toList 3 4 :=
      ⟨_, _, rfl, by decide, by decide, ⟨[], _, ['\x1c'], rfl, by simp, hthree, by simpa⟩,
        ⟨[], _, [], rfl, by simp, hfour, by simp⟩⟩
    obtain ⟨rhythm, hparse, -⟩ := (hread _ 3 4).mpr ⟨hspelled, by decide, by decide⟩
    have hrefused : parse "3\x1c/4" = .error (.form "3\x1c/4") := by decide
    rw [hrefused] at hparse
    cases hparse
  | false =>
    have hparse : parse "\x1c3/4" = .ok { numerator := 3, denominator := 4 } := by decide
    obtain ⟨⟨left, right, htext, -, -, hleft, -⟩, -⟩ := (hread _ 3 4).mp ⟨_, hparse, rfl, rfl⟩
    have hnot : '\x1c' ∉ left := hleft.not_mem hseparator (by decide) hseparator
    cases left with
    | nil => exact absurd (List.cons.inj htext).1 (by decide)
    | cons first rest =>
      rw [← (List.cons.inj htext).1] at hnot
      exact hnot List.mem_cons_self

end Rhythm

end ScoreRepeats
