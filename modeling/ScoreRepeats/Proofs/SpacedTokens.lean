import Mathlib.Data.List.Basic
import ScoreRepeats.Notation.Token

/-!
# Spaced tokens

A text falls apart into tokens wherever one of two neighbours is a blank or a bracket
(`tokens_append`): with blanks around the brackets, the words of the two parts are apart. So a text
holds tokens with blanks between them (`Spaced`): any blanks before and after each, and at least one
between two words. A bracket needs none. The tokens of a text are the brackets and words that are
spaced in it, and there are no others (`tokens_eq_iff_hasTokens`).
-/

set_option autoImplicit false
set_option relaxedAutoImplicit false

namespace ScoreRepeats.Notation

def isBracket (char : Char) : Bool := char == '[' || char == ']'

/-- A character that is neither a blank nor a bracket. -/
def isWordChar (char : Char) : Bool := !Text.isBlank char && !isBracket char

/-- A token that is a bracket. -/
def IsBracketToken (token : Token) : Prop := token = ['['] ∨ token = [']']

/-- A token without blanks and brackets. -/
def IsWord (token : Token) : Prop := token ≠ [] ∧ ∀ char ∈ token, isWordChar char = true

instance (token : Token) : Decidable (IsWord token) :=
  decidable_of_iff (token ≠ [] ∧ token.all isWordChar = true) (by rw [IsWord, List.all_eq_true])

/-- A text that holds tokens with blanks between them. Each ends at a blank, at a bracket or with
the text, unless it is a bracket itself. -/
inductive Spaced : List Token → List Char → Prop
  | nil {blanks : List Char} (blank : ∀ char ∈ blanks, Text.isBlank char = true) : Spaced [] blanks
  | cons {blanks : List Char} {token : Token} {rest : List Token} {text : List Char}
      (blank : ∀ char ∈ blanks, Text.isBlank char = true)
      (apart : IsBracketToken token ∨ ∀ char ∈ text.head?, isWordChar char = false)
      (spaced : Spaced rest text) : Spaced (token :: rest) (blanks ++ (token ++ text))

variable {token : Token} {text first second : List Char} {char : Char}

/-- A character of a word is neither a blank nor a bracket. -/
theorem isWordChar_iff :
    isWordChar char = true ↔ Text.isBlank char = false ∧ isBracket char = false := by
  rw [isWordChar, Bool.and_eq_true, Bool.not_eq_true', Bool.not_eq_true']

theorem isWordChar_eq_false_of_isBlank (h : Text.isBlank char = true) :
    isWordChar char = false := by
  rw [isWordChar, h]
  rfl

theorem isWordChar_eq_false_of_mem_bracket (h : IsBracketToken token) (hchar : char ∈ token) :
    isWordChar char = false := by
  rcases h with rfl | rfl
  · rw [List.mem_singleton.mp hchar]
    rfl
  · rw [List.mem_singleton.mp hchar]
    rfl

/-- With blanks around the brackets, a character that belongs to no word begins and ends with one. -/
theorem bracketsApart_singleton_of_not_isWordChar (h : isWordChar char = false) :
    (∃ blank rest, bracketsApart [char] = blank :: rest ∧ Text.isBlank blank = true) ∧
      ∃ front blank, bracketsApart [char] = front ++ [blank] ∧ Text.isBlank blank = true := by
  rw [isWordChar, Bool.and_eq_false_iff, Bool.not_eq_false', Bool.not_eq_false', isBracket,
    Bool.or_eq_true, beq_iff_eq, beq_iff_eq] at h
  rcases h with hblank | rfl | rfl
  · have hne : ∀ bracket, Text.isBlank bracket = false → bracket ∉ [char] := by
      intro bracket hbracket hmem
      rw [List.mem_singleton.mp hmem, hblank] at hbracket
      cases hbracket
    have hself := bracketsApart_of_notMem (hne '[' rfl) (hne ']' rfl)
    exact ⟨⟨char, [], hself, hblank⟩, [], char, hself, hblank⟩
  · exact ⟨⟨' ', ['[', ' '], rfl, rfl⟩, [' ', '['], ' ', rfl, rfl⟩
  · exact ⟨⟨' ', [']', ' '], rfl, rfl⟩, [' ', ']'], ' ', rfl, rfl⟩

theorem isBlank_getLast?_bracketsApart (h : ∀ last ∈ text.getLast?, isWordChar last = false) :
    ∀ last ∈ (bracketsApart text).getLast?, Text.isBlank last = true := by
  cases htext : text.getLast? with
  | none =>
    rw [List.getLast?_eq_none_iff.mp htext]
    rintro _ ⟨⟩
  | some last =>
    obtain ⟨front, rfl⟩ := List.getLast?_eq_some_iff.mp htext
    obtain ⟨-, before, blank, heq, hblank⟩ :=
      bracketsApart_singleton_of_not_isWordChar (h last htext)
    rw [bracketsApart_append, heq, ← List.append_assoc, List.getLast?_concat]
    rintro _ ⟨⟩
    exact hblank

theorem isBlank_head?_bracketsApart (h : ∀ next ∈ text.head?, isWordChar next = false) :
    ∀ next ∈ (bracketsApart text).head?, Text.isBlank next = true := by
  cases text with
  | nil => rintro _ ⟨⟩
  | cons next rest =>
    obtain ⟨⟨blank, after, heq, hblank⟩, -⟩ :=
      bracketsApart_singleton_of_not_isWordChar (h next rfl)
    rw [← List.singleton_append, bracketsApart_append, heq]
    rintro _ ⟨⟩
    exact hblank

/-- A text falls apart where one of two neighbours is no character of a word. -/
theorem tokens_append (h : (∀ last ∈ first.getLast?, isWordChar last = false) ∨
    ∀ next ∈ second.head?, isWordChar next = false) :
    tokens (first ++ second) = tokens first ++ tokens second := by
  rw [tokens, bracketsApart_append, Text.words_append, ← tokens, ← tokens]
  exact h.imp isBlank_getLast?_bracketsApart isBlank_head?_bracketsApart

/-- There are no tokens in blanks. -/
theorem tokens_eq_nil_of_blank (h : ∀ char ∈ text, Text.isBlank char = true) :
    tokens text = [] := by
  have hself : bracketsApart text = text :=
    bracketsApart_of_notMem (fun hmem ↦ absurd (h _ hmem) (by decide))
      fun hmem ↦ absurd (h _ hmem) (by decide)
  rw [tokens, hself, Text.words_eq_nil_of_blank h]

/-- A word is one token. -/
theorem tokens_of_isWord (h : IsWord token) : tokens token = [token] := by
  obtain ⟨hne, hword⟩ := h
  have hself : bracketsApart token = token :=
    bracketsApart_of_notMem (fun hmem ↦ absurd (hword _ hmem) (by decide))
      fun hmem ↦ absurd (hword _ hmem) (by decide)
  rw [tokens, hself]
  exact Text.words_of_forall hne fun char hchar ↦ (isWordChar_iff.mp (hword char hchar)).1

/-- A bracket is one token. -/
theorem tokens_of_isBracketToken (h : IsBracketToken token) : tokens token = [token] := by
  rcases h with rfl | rfl <;> decide

theorem tokens_of_isBracketToken_or_isWord (h : IsBracketToken token ∨ IsWord token) :
    tokens token = [token] :=
  h.elim tokens_of_isBracketToken tokens_of_isWord

/-- Blanks before a text are no part of its tokens. -/
theorem tokens_blank_append {blanks : List Char} (h : ∀ char ∈ blanks, Text.isBlank char = true) :
    tokens (blanks ++ text) = tokens text := by
  have hlast : ∀ last ∈ blanks.getLast?, isWordChar last = false := fun last hlast ↦
    isWordChar_eq_false_of_isBlank (h last (List.mem_of_mem_getLast? hlast))
  rw [tokens_append (.inl hlast), tokens_eq_nil_of_blank h, List.nil_append]

/-- The tokens of a text in which brackets and words are spaced are these. -/
theorem tokens_eq_of_spaced {list : List Token} (h : Spaced list text)
    (htokens : ∀ token ∈ list, IsBracketToken token ∨ IsWord token) : tokens text = list := by
  induction h with
  | nil blank => exact tokens_eq_nil_of_blank blank
  | @cons _ token _ text blank apart _ ih =>
    rw [List.forall_mem_cons] at htokens
    have hapart : (∀ last ∈ token.getLast?, isWordChar last = false) ∨
        ∀ next ∈ text.head?, isWordChar next = false :=
      apart.imp_left fun hbracket last hlast ↦
        isWordChar_eq_false_of_mem_bracket hbracket (List.mem_of_mem_getLast? hlast)
    rw [tokens_blank_append blank, tokens_append hapart,
      tokens_of_isBracketToken_or_isWord htokens.1, ih htokens.2, List.singleton_append]

/-- More blanks may stand before a text. -/
theorem Spaced.blank_append {list : List Token} (h : Spaced list text) {blanks : List Char}
    (hblanks : ∀ char ∈ blanks, Text.isBlank char = true) : Spaced list (blanks ++ text) := by
  cases h with
  | nil blank => exact .nil (List.forall_mem_append.mpr ⟨hblanks, blank⟩)
  | cons blank apart spaced =>
    rw [← List.append_assoc]
    exact .cons (List.forall_mem_append.mpr ⟨hblanks, blank⟩) apart spaced

/-- A text with brackets and words that are spaced in it. -/
def HasTokens (text : List Char) (list : List Token) : Prop :=
  Spaced list text ∧ ∀ token ∈ list, IsBracketToken token ∨ IsWord token

/-- A character of a word begins a word or lengthens the one that follows. -/
theorem HasTokens.exists_wordChar_cons {list : List Token} (h : HasTokens text list)
    (hchar : isWordChar char = true) : ∃ longer, HasTokens (char :: text) longer := by
  obtain ⟨hspaced, htokens⟩ := h
  by_cases hnext : ∀ next ∈ text.head?, isWordChar next = false
  · have hword : IsWord [char] := ⟨List.cons_ne_nil _ _, by simpa using hchar⟩
    exact ⟨[char] :: list, .cons (List.forall_mem_nil _) (.inr hnext) hspaced,
      List.forall_mem_cons.mpr ⟨.inr hword, htokens⟩⟩
  · cases hspaced with
    | nil blank =>
      refine absurd (fun next hmem ↦ ?_) hnext
      exact isWordChar_eq_false_of_isBlank (blank next (List.mem_of_mem_head? hmem))
    | @cons blanks token rest after blank apart spaced =>
      rw [List.forall_mem_cons] at htokens
      -- Neither a blank nor a bracket is a character of a word, so a word comes first.
      have hno : ¬ IsBracketToken token := fun hbracket ↦ hnext fun next hmem ↦ by
        rw [Option.mem_def, List.head?_append, Option.or_eq_some_iff, List.head?_append] at hmem
        rcases hmem with hmem | ⟨-, hmem⟩
        · exact isWordChar_eq_false_of_isBlank (blank next (List.mem_of_mem_head? hmem))
        · refine isWordChar_eq_false_of_mem_bracket hbracket (List.mem_of_mem_head? ?_)
          rcases hbracket with rfl | rfl <;> exact hmem
      cases blanks with
      | nil =>
        have hword : IsWord (char :: token) :=
          ⟨List.cons_ne_nil _ _,
            List.forall_mem_cons.mpr ⟨hchar, (htokens.1.resolve_left hno).2⟩⟩
        exact ⟨(char :: token) :: rest,
          .cons (List.forall_mem_nil _) (.inr (apart.resolve_left hno)) spaced,
          List.forall_mem_cons.mpr ⟨.inr hword, htokens.2⟩⟩
      | cons first more =>
        refine absurd (fun next hmem ↦ ?_) hnext
        cases hmem
        exact isWordChar_eq_false_of_isBlank (blank first List.mem_cons_self)

/-- Every text has tokens that are spaced in it. -/
theorem exists_hasTokens (text : List Char) : ∃ list, HasTokens text list := by
  induction text with
  | nil => exact ⟨[], .nil (List.forall_mem_nil _), List.forall_mem_nil _⟩
  | cons char rest ih =>
    obtain ⟨list, hspaced, htokens⟩ := ih
    by_cases hblank : Text.isBlank char = true
    · have hone : ∀ blank ∈ [char], Text.isBlank blank = true :=
        List.forall_mem_singleton.mpr hblank
      exact ⟨list, hspaced.blank_append hone, htokens⟩
    · by_cases hbracket : isBracket char = true
      · have htoken : IsBracketToken [char] := by
          simpa [IsBracketToken, isBracket] using hbracket
        exact ⟨[char] :: list, .cons (List.forall_mem_nil _) (.inl htoken) hspaced,
          List.forall_mem_cons.mpr ⟨.inl htoken, htokens⟩⟩
      · refine HasTokens.exists_wordChar_cons ⟨hspaced, htokens⟩ ?_
        simp [isWordChar, hblank, hbracket]

/-- The tokens of a text are the brackets and words that are spaced in it. -/
theorem tokens_eq_iff_hasTokens {list : List Token} : tokens text = list ↔ HasTokens text list := by
  constructor
  · rintro rfl
    obtain ⟨list, hlist⟩ := exists_hasTokens text
    rwa [tokens_eq_of_spaced hlist.1 hlist.2]
  · exact fun hlist ↦ tokens_eq_of_spaced hlist.1 hlist.2

end ScoreRepeats.Notation
