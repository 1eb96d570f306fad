import ScoreRepeats.Text.Blank

/-!
# Tokens of the bar notation

Every bracket is a token of its own: it is set apart from its neighbours by blanks, and then the
notation is split into words.
-/

set_option autoImplicit false
set_option relaxedAutoImplicit false

namespace ScoreRepeats.Notation

/-- A token is the text that it stands for. -/
abbrev Token := List Char

/-- The text with a blank on either side of a character wherever it stands. -/
def setApart (char : Char) (text : List Char) : List Char :=
  text.flatMap fun other ↦ if other = char then [' ', other, ' '] else [other]

/-- The text with blanks around every bracket. -/
def bracketsApart (text : List Char) : List Char := setApart ']' (setApart '[' text)

/-- The tokens of a text, in order. -/
def tokens (text : List Char) : List Token := Text.words (bracketsApart text)

theorem setApart_append (char : Char) (first second : List Char) :
    setApart char (first ++ second) = setApart char first ++ setApart char second :=
  List.flatMap_append

theorem setApart_of_notMem {char : Char} {text : List Char} (h : char ∉ text) :
    setApart char text = text := by
  induction text with
  | nil => rfl
  | cons other rest ih =>
    rw [List.mem_cons, not_or] at h
    rw [setApart, List.flatMap_cons, if_neg (Ne.symm h.1), ← setApart, ih h.2]
    rfl

theorem bracketsApart_append (first second : List Char) :
    bracketsApart (first ++ second) = bracketsApart first ++ bracketsApart second := by
  rw [bracketsApart, setApart_append, setApart_append, ← bracketsApart, ← bracketsApart]

/-- A text without brackets stays as it is. -/
theorem bracketsApart_of_notMem {text : List Char} (hopening : '[' ∉ text) (hclosing : ']' ∉ text) :
    bracketsApart text = text := by
  rw [bracketsApart, setApart_of_notMem hopening, setApart_of_notMem hclosing]

end ScoreRepeats.Notation
