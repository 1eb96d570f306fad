/-!
# Blanks

The characters that separate words and pad numbers: tabs, line ends, the four information
separators, and the spaces of every script. The zero-width space and the byte-order mark are not
among them. `strip` takes blanks off both ends of a text, and `words` are what stands between blanks.
-/

set_option autoImplicit false
set_option relaxedAutoImplicit false

namespace ScoreRepeats.Text

/-- A blank of any script. -/
def isBlank (char : Char) : Bool :=
  let code := char.toNat
  (0x09 ≤ code && code ≤ 0x0d) || (0x1c ≤ code && code ≤ 0x20) || code == 0x85 || code == 0xa0
    || code == 0x1680 || (0x2000 ≤ code && code ≤ 0x200a) || code == 0x2028 || code == 0x2029
    || code == 0x202f || code == 0x205f || code == 0x3000

/-- The text without the blanks at its two ends. -/
def strip (text : List Char) : List Char :=
  ((text.dropWhile isBlank).reverse.dropWhile isBlank).reverse

/-- The words of a text: the pieces between blanks, without the empty ones. -/
def words (text : List Char) : List (List Char) :=
  (text.splitOnP isBlank).filter fun piece ↦ !piece.isEmpty

variable {first second text : List Char}

/-- A blank belongs to no word, and words end there. -/
theorem words_append_cons {blank : Char} (h : isBlank blank = true) (first second : List Char) :
    words (first ++ blank :: second) = words first ++ words second := by
  rw [words, List.splitOnP_append_cons first second h, List.filter_append, ← words, ← words]

@[simp] theorem words_nil : words [] = [] := rfl

/-- A blank before a text belongs to no word. -/
theorem words_cons_of_isBlank {blank : Char} (h : isBlank blank = true) (text : List Char) :
    words (blank :: text) = words text :=
  words_append_cons h [] text

/-- There are no words in blanks. -/
theorem words_eq_nil_of_blank (h : ∀ char ∈ text, isBlank char = true) : words text = [] := by
  induction text with
  | nil => rfl
  | cons blank rest ih =>
    rw [List.forall_mem_cons] at h
    rw [words_cons_of_isBlank h.1, ih h.2]

/-- Where two texts meet at a blank, the words are those of the first and then those of the second. -/
theorem words_append (h : (∀ last ∈ first.getLast?, isBlank last = true) ∨
    ∀ next ∈ second.head?, isBlank next = true) :
    words (first ++ second) = words first ++ words second := by
  rcases h with hlast | hnext
  · cases hfirst : first.getLast? with
    | none => rw [List.getLast?_eq_none_iff.mp hfirst, words_nil, List.nil_append, List.nil_append]
    | some last =>
      obtain ⟨front, rfl⟩ := List.getLast?_eq_some_iff.mp hfirst
      have hblank := hlast last hfirst
      rw [List.append_assoc, List.singleton_append, words_append_cons hblank,
        words_append_cons hblank, words_nil, List.append_nil]
  · cases second with
    | nil => rw [words_nil, List.append_nil, List.append_nil]
    | cons next rest =>
      have hblank := hnext next rfl
      rw [words_append_cons hblank, words_cons_of_isBlank hblank]

/-- A text without blanks is one word. -/
theorem words_of_forall (hne : text ≠ []) (h : ∀ char ∈ text, isBlank char = false) :
    words text = [text] := by
  rw [words, List.splitOnP_eq_singleton h]
  simp [hne]

/-- The pieces of a text between the places where a separator stands; one more than there are
separators. -/
def splitAt (separator : Char) : List Char → List (List Char)
  | [] => [[]]
  | char :: rest =>
    if char = separator then [] :: splitAt separator rest
    else match splitAt separator rest with
      | [] => [[char]]
      | piece :: pieces => (char :: piece) :: pieces

theorem splitAt_ne_nil (separator : Char) (text : List Char) : splitAt separator text ≠ [] := by
  cases text with
  | nil => simp [splitAt]
  | cons char rest =>
    unfold splitAt
    split
    · simp
    · split <;> simp

end ScoreRepeats.Text
