import Mathlib.Data.List.DropRight
import ScoreRepeats.Proofs.SpacedTokens

/-!
# What the tokens keep of a text

One after the other, the tokens are the text without its blanks (`flatten_tokens`). So each character
that is no blank has its token, the one that holds its place (`HoldsPlace`), and no other
(`existsUnique_holdsPlace_iff`). Neighbours that are characters of words are in one token
(`exists_holdsPlace_both`): the run of such characters around them is a word, and on either side of
it the text falls apart. Other neighbours never are (`isWordChar_of_holdsPlace_both`), since a token
that is longer than one character is a word. Tokens that are joined again, with any blanks or, at a
bracket, with none (`Joined`), are spaced in that text, and so they are its tokens.
-/

set_option autoImplicit false
set_option relaxedAutoImplicit false

namespace ScoreRepeats.Notation

variable {text : List Char} {token : Token} {list : List Token} {char : Char}
  {index place : Nat}

/-- A text without its blanks. -/
def withoutBlanks (text : List Char) : List Char := text.filter fun char ↦ !Text.isBlank char

theorem withoutBlanks_append (first second : List Char) :
    withoutBlanks (first ++ second) = withoutBlanks first ++ withoutBlanks second :=
  List.filter_append first second

theorem withoutBlanks_cons_of_not_isBlank (h : Text.isBlank char = false) (rest : List Char) :
    withoutBlanks (char :: rest) = char :: withoutBlanks rest := by
  simp [withoutBlanks, h]

theorem withoutBlanks_eq_nil (h : ∀ char ∈ text, Text.isBlank char = true) :
    withoutBlanks text = [] := by
  simpa [withoutBlanks] using h

theorem withoutBlanks_eq_self (h : ∀ char ∈ text, Text.isBlank char = false) :
    withoutBlanks text = text := by
  simpa [withoutBlanks] using h

theorem withoutBlanks_take_succ (hchar : text[place]? = some char)
    (h : Text.isBlank char = false) :
    withoutBlanks (text.take (place + 1)) = withoutBlanks (text.take place) ++ [char] := by
  rw [List.take_add_one, hchar, Option.toList_some, withoutBlanks_append,
    withoutBlanks_cons_of_not_isBlank h]
  rfl

/-! ### The characters of a token -/

theorem isBlank_eq_false_of_mem (h : IsBracketToken token ∨ IsWord token) (hchar : char ∈ token) :
    Text.isBlank char = false := by
  rcases h with (rfl | rfl) | hword
  · rw [List.mem_singleton.mp hchar]
    rfl
  · rw [List.mem_singleton.mp hchar]
    rfl
  · exact (isWordChar_iff.mp (hword.2 char hchar)).1

theorem isBracketToken_or_isWord_of_mem_tokens (h : token ∈ tokens text) :
    IsBracketToken token ∨ IsWord token :=
  (tokens_eq_iff_hasTokens.mp rfl).2 token h

/-- A token is not empty, it has no blanks, and only a bracket by itself has a bracket. -/
theorem characters_of_mem_tokens (h : token ∈ tokens text) :
    token ≠ [] ∧ (∀ char ∈ token, Text.isBlank char = false) ∧
      ∀ char ∈ token, isBracket char = true → token = [char] := by
  have htoken := isBracketToken_or_isWord_of_mem_tokens h
  refine ⟨?_, fun char hchar ↦ isBlank_eq_false_of_mem htoken hchar, fun char hchar hbracket ↦ ?_⟩
  · rcases htoken with (rfl | rfl) | hword
    · exact List.cons_ne_nil _ _
    · exact List.cons_ne_nil _ _
    · exact hword.1
  · rcases htoken with (rfl | rfl) | hword
    · rw [List.mem_singleton.mp hchar]
    · rw [List.mem_singleton.mp hchar]
    · rw [(isWordChar_iff.mp (hword.2 char hchar)).2] at hbracket
      cases hbracket

/-! ### Nothing is lost -/

/-- Tokens that are spaced in a text are, one after the other, the text without its blanks. -/
theorem Spaced.flatten_eq (h : Spaced list text)
    (htokens : ∀ token ∈ list, IsBracketToken token ∨ IsWord token) :
    list.flatten = withoutBlanks text := by
  induction h with
  | nil blank => rw [withoutBlanks_eq_nil blank, List.flatten_nil]
  | @cons blanks token rest text blank _ _ ih =>
    rw [List.forall_mem_cons] at htokens
    have hself : withoutBlanks token = token :=
      withoutBlanks_eq_self fun char hchar ↦ isBlank_eq_false_of_mem htokens.1 hchar
    rw [withoutBlanks_append, withoutBlanks_append, withoutBlanks_eq_nil blank, hself,
      ← ih htokens.2, List.flatten_cons, List.nil_append]

/-- One after the other, the tokens are the text without its blanks. -/
theorem flatten_tokens (text : List Char) : (tokens text).flatten = withoutBlanks text :=
  have h := tokens_eq_iff_hasTokens.mp (Eq.refl (tokens text))
  h.1.flatten_eq h.2

/-! ### The token of a place -/

/-- The token with this index holds the character at this place of the text: what stands before the
place are, without blanks, the earlier tokens and what stands before the character in its token. -/
def HoldsPlace (text : List Char) (index place : Nat) : Prop :=
  ∃ front char back, (tokens text)[index]? = some (front ++ char :: back) ∧
    text[place]? = some char ∧
    withoutBlanks (text.take place) = ((tokens text).take index).flatten ++ front

theorem holdsPlace_of_tokens_eq {earlier later : List Token} {back : List Char}
    (front : List Char) (htokens : tokens text = earlier ++ (front ++ char :: back) :: later)
    (hchar : text[place]? = some char)
    (hbefore : withoutBlanks (text.take place) = earlier.flatten ++ front) :
    HoldsPlace text earlier.length place := by
  refine ⟨front, char, back, ?_, hchar, ?_⟩
  · rw [htokens, List.getElem?_append_right (Nat.le_refl _), Nat.sub_self, List.getElem?_cons_zero]
  · rw [htokens, List.take_left, hbefore]

theorem HoldsPlace.isBlank_eq_false (h : HoldsPlace text index place) :
    ∃ char, text[place]? = some char ∧ Text.isBlank char = false := by
  obtain ⟨front, char, back, htoken, hchar, -⟩ := h
  have hmem : char ∈ front ++ char :: back := List.mem_append_right _ List.mem_cons_self
  exact ⟨char, hchar, (characters_of_mem_tokens (List.mem_of_getElem? htoken)).2.1 char hmem⟩

/-- The tokens before a later one hold more characters than stand before the place. -/
theorem HoldsPlace.not_lt {later : Nat} (h : HoldsPlace text index place)
    (hlater : HoldsPlace text later place) : ¬ index < later := by
  obtain ⟨front, char, back, htoken, -, hbefore⟩ := h
  obtain ⟨front', -, -, -, -, hbefore'⟩ := hlater
  intro hlt
  obtain ⟨more, rfl⟩ := Nat.exists_eq_add_of_lt hlt
  have hsplit : ((tokens text).take (index + more + 1)).flatten =
      ((tokens text).take index).flatten ++
        ((front ++ char :: back) ++ (((tokens text).drop (index + 1)).take more).flatten) := by
    rw [Nat.add_assoc, Nat.add_comm more, ← Nat.add_assoc, List.take_add, List.take_add_one, htoken,
      Option.toList_some, List.flatten_append, List.flatten_append, List.flatten_singleton,
      List.append_assoc]
  have hlength := congrArg List.length (hbefore.symm.trans hbefore')
  rw [hsplit] at hlength
  simp only [List.length_append, List.length_cons] at hlength
  omega

/-- A character that is no blank has its token. -/
theorem exists_holdsPlace (hchar : text[place]? = some char) (h : Text.isBlank char = false) :
    ∃ index, HoldsPlace text index place := by
  obtain ⟨hlt, hget⟩ := List.getElem?_eq_some_iff.mp hchar
  have hflatten : (tokens text).flatten =
      withoutBlanks (text.take place) ++ char :: withoutBlanks (text.drop (place + 1)) := by
    rw [flatten_tokens, ← withoutBlanks_cons_of_not_isBlank h, ← hget, List.getElem_cons_drop,
      ← withoutBlanks_append, List.take_append_drop]
  rcases List.flatten_eq_append_iff.mp hflatten with ⟨earlier, later, htokens, hbefore, hafter⟩ |
    ⟨earlier, front, found, back, later, htokens, hbefore, hafter⟩
  · -- The place is the first of a token.
    obtain ⟨empty, back, rest, rfl, hempty, -⟩ := List.flatten_eq_cons_iff.mp hafter.symm
    have hnil : empty = [] := by
      refine List.eq_nil_iff_forall_not_mem.mpr fun token hmem ↦ ?_
      have htoken : token ∈ tokens text := by
        rw [htokens]
        exact List.mem_append_right _ (List.mem_append_left _ hmem)
      exact (characters_of_mem_tokens htoken).1 (hempty token hmem)
    rw [hnil, List.nil_append] at htokens
    exact ⟨earlier.length, holdsPlace_of_tokens_eq [] htokens hchar
      (by rw [hbefore, List.append_nil])⟩
  · obtain rfl : char = found := (List.cons.inj hafter).1
    exact ⟨earlier.length, holdsPlace_of_tokens_eq front htokens hchar hbefore⟩

/-- Just the characters that are no blanks have a token, and each has one. -/
theorem existsUnique_holdsPlace_iff :
    (∃! index, HoldsPlace text index place) ↔
      ∃ char, text[place]? = some char ∧ Text.isBlank char = false := by
  constructor
  · rintro ⟨index, h, -⟩
    exact h.isBlank_eq_false
  · rintro ⟨char, hchar, h⟩
    obtain ⟨index, hindex⟩ := exists_holdsPlace hchar h
    refine ⟨index, hindex, fun other hother ↦ ?_⟩
    exact Nat.le_antisymm (Nat.le_of_not_lt (hindex.not_lt hother))
      (Nat.le_of_not_lt (hother.not_lt hindex))

/-! ### Neighbours -/

/-- Around a word that nothing lengthens, a text falls apart. -/
theorem tokens_around_word {lead trail : List Char} (hword : IsWord token)
    (hlead : ∀ last ∈ lead.getLast?, isWordChar last = false)
    (htrail : ∀ next ∈ trail.head?, isWordChar next = false) :
    tokens (lead ++ (token ++ trail)) = tokens lead ++ token :: tokens trail := by
  rw [tokens_append (.inl hlead), tokens_append (.inr htrail), tokens_of_isWord hword,
    List.singleton_append]

/-- The characters of a word with which a text ends. -/
theorem exists_run_at_end (text : List Char) :
    ∃ lead run, text = lead ++ run ∧ (∀ char ∈ run, isWordChar char = true) ∧
      ∀ last ∈ lead.getLast?, isWordChar last = false := by
  refine ⟨text.rdropWhile isWordChar, text.rtakeWhile isWordChar,
    List.rdropWhile_append_rtakeWhile.symm, fun _ hchar ↦ List.mem_rtakeWhile_imp hchar,
    fun last hlast ↦ ?_⟩
  obtain ⟨hne, rfl⟩ := List.mem_getLast?_eq_getLast hlast
  exact Bool.eq_false_iff.mpr (List.rdropWhile_last_not isWordChar text hne)

/-- The characters of a word with which a text begins. -/
theorem exists_run_at_start (text : List Char) :
    ∃ run trail, text = run ++ trail ∧ (∀ char ∈ run, isWordChar char = true) ∧
      ∀ next ∈ trail.head?, isWordChar next = false := by
  refine ⟨text.takeWhile isWordChar, text.dropWhile isWordChar,
    List.takeWhile_append_dropWhile.symm, fun _ hchar ↦ List.mem_takeWhile_imp hchar,
    fun next hnext ↦ ?_⟩
  have hstop := List.head?_dropWhile_not isWordChar text
  rwa [Option.mem_def.mp hnext] at hstop

theorem eq_append_neighbours {one other : Char} (hone : text[place]? = some one)
    (hother : text[place + 1]? = some other) :
    text = text.take place ++ one :: other :: text.drop (place + 2) := by
  obtain ⟨hlt, rfl⟩ := List.getElem?_eq_some_iff.mp hone
  obtain ⟨hlt', rfl⟩ := List.getElem?_eq_some_iff.mp hother
  rw [List.getElem_cons_drop hlt', List.getElem_cons_drop hlt, List.take_append_drop]

/-- Neighbours that are characters of words are in one token: the run of such characters around
them. -/
theorem exists_holdsPlace_both {one other : Char} (hone : text[place]? = some one)
    (hother : text[place + 1]? = some other) (hwordOne : isWordChar one = true)
    (hwordOther : isWordChar other = true) :
    ∃ index, HoldsPlace text index place ∧ HoldsPlace text index (place + 1) := by
  obtain ⟨lead, front, hlead, hfront, hlast⟩ := exists_run_at_end (text.take place)
  obtain ⟨back, trail, htrail, hback, hnext⟩ := exists_run_at_start (text.drop (place + 2))
  have hword : IsWord (front ++ one :: other :: back) := by
    refine ⟨List.append_ne_nil_of_right_ne_nil _ (List.cons_ne_nil _ _), ?_⟩
    rw [List.forall_mem_append, List.forall_mem_cons, List.forall_mem_cons]
    exact ⟨hfront, hwordOne, hwordOther, hback⟩
  have htext : text = lead ++ ((front ++ one :: other :: back) ++ trail) :=
    calc text = text.take place ++ one :: other :: text.drop (place + 2) :=
          eq_append_neighbours hone hother
      _ = (lead ++ front) ++ one :: other :: (back ++ trail) := by rw [hlead, htrail]
      _ = lead ++ ((front ++ one :: other :: back) ++ trail) := by simp
  have htokens := tokens_around_word hword hlast hnext
  rw [← htext] at htokens
  have hbefore : withoutBlanks (text.take place) = (tokens lead).flatten ++ front := by
    rw [hlead, withoutBlanks_append, flatten_tokens,
      withoutBlanks_eq_self fun char hchar ↦ (isWordChar_iff.mp (hfront char hchar)).1]
  have hbefore' :
      withoutBlanks (text.take (place + 1)) = (tokens lead).flatten ++ (front ++ [one]) := by
    rw [withoutBlanks_take_succ hone (isWordChar_iff.mp hwordOne).1, hbefore,
      List.append_assoc]
  have htokens' :
      tokens text = tokens lead ++ ((front ++ [one]) ++ other :: back) :: tokens trail := by
    rw [htokens, List.append_assoc, List.singleton_append]
  exact ⟨(tokens lead).length, holdsPlace_of_tokens_eq front htokens hone hbefore,
    holdsPlace_of_tokens_eq (front ++ [one]) htokens' hother hbefore'⟩

/-- Neighbours in one token are characters of words: their token is no bracket. -/
theorem isWordChar_of_holdsPlace_both {one other : Char} (hone : text[place]? = some one)
    (hother : text[place + 1]? = some other) (hfirst : HoldsPlace text index place)
    (hsecond : HoldsPlace text index (place + 1)) :
    isWordChar one = true ∧ isWordChar other = true := by
  obtain ⟨_, hone', hblank⟩ := hfirst.isBlank_eq_false
  obtain ⟨front, _, back, htoken, hone'', hbefore⟩ := hfirst
  obtain ⟨front', _, back', htoken', hother', hbefore'⟩ := hsecond
  cases hone.symm.trans hone'
  cases hone.symm.trans hone''
  cases hother.symm.trans hother'
  have hfront : front' = front ++ [one] := by
    rw [withoutBlanks_take_succ hone hblank, hbefore, List.append_assoc] at hbefore'
    exact (List.append_cancel_left hbefore').symm
  have hmem := List.mem_of_getElem? htoken'
  rw [hfront] at hmem
  rcases isBracketToken_or_isWord_of_mem_tokens hmem with hbracket | hword
  · have hlength : (front ++ [one] ++ other :: back').length = 1 := by
      rcases hbracket with heq | heq <;> rw [heq] <;> rfl
    simp only [List.length_append, List.length_cons] at hlength
    omega
  · exact ⟨hword.2 one (by simp), hword.2 other (by simp)⟩

/-! ### Tokens written again -/

/-- Tokens joined with blanks: between any two are blanks, or nothing if one of them is a bracket. -/
inductive Joined : List Token → List Char → Prop
  | nil : Joined [] []
  | single (token : Token) : Joined [token] token
  | cons {token next : Token} {rest : List Token} {blanks text : List Char}
      (blank : ∀ char ∈ blanks, Text.isBlank char = true)
      (apart : blanks ≠ [] ∨ IsBracketToken token ∨ IsBracketToken next)
      (joined : Joined (next :: rest) text) :
      Joined (token :: next :: rest) (token ++ (blanks ++ text))

theorem Joined.exists_eq_append {next : Token} {rest : List Token}
    (h : Joined (next :: rest) text) : ∃ more, text = next ++ more := by
  cases h with
  | single => exact ⟨[], (List.append_nil _).symm⟩
  | cons => exact ⟨_, rfl⟩

/-- Joined tokens are spaced. -/
theorem Joined.spaced (h : Joined list text) : Spaced list text := by
  induction h with
  | nil => exact .nil (List.forall_mem_nil _)
  | single token =>
    have hspaced : Spaced [token] ([] ++ (token ++ [])) :=
      .cons (List.forall_mem_nil _) (.inr (by rintro _ ⟨⟩)) (.nil (List.forall_mem_nil _))
    rwa [List.nil_append, List.append_nil] at hspaced
  | @cons token next rest blanks text blank apart joined ih =>
    refine .cons (List.forall_mem_nil _) ?_ (ih.blank_append blank)
    rcases apart with hne | hbracket | hbracket
    · obtain ⟨separator, more, rfl⟩ := List.exists_cons_of_ne_nil hne
      refine .inr ?_
      rintro _ ⟨⟩
      exact isWordChar_eq_false_of_isBlank (blank separator List.mem_cons_self)
    · exact .inl hbracket
    · refine .inr fun char hchar ↦ ?_
      obtain ⟨more, rfl⟩ := joined.exists_eq_append
      cases blanks with
      | nil =>
        rcases hbracket with rfl | rfl <;> cases hchar <;> rfl
      | cons separator others =>
        cases hchar
        exact isWordChar_eq_false_of_isBlank (blank _ List.mem_cons_self)

/-- Tokens are found again in every text in which they are joined. -/
theorem tokens_of_joined_tokens {joined : List Char} (h : Joined (tokens text) joined) :
    tokens joined = tokens text :=
  tokens_eq_of_spaced h.spaced (tokens_eq_iff_hasTokens.mp rfl).2

/-! ### The whole -/

/-- The tokens of a text lose nothing of it but blanks, and no two of them could be one. None is empty,
none has a blank, and brackets are tokens by themselves. One after the other, the tokens are the text
without its blanks, and so every character that is no blank is in one token. Neighbours are in the same
one exactly if both are characters of words, that is, neither blanks nor brackets. If the tokens are
joined again with blanks between any two, or with none where one of them is a bracket, the tokens of
that text are these. -/
theorem tokens_split_losslessly (text : List Char) :
    (∀ token ∈ tokens text, token ≠ [] ∧ (∀ char ∈ token, Text.isBlank char = false) ∧
        ∀ char ∈ token, isBracket char = true → token = [char]) ∧
      (tokens text).flatten = withoutBlanks text ∧
      (∀ place, (∃! index, HoldsPlace text index place) ↔
        ∃ char, text[place]? = some char ∧ Text.isBlank char = false) ∧
      (∀ place one other, text[place]? = some one → text[place + 1]? = some other →
        ((∃ index, HoldsPlace text index place ∧ HoldsPlace text index (place + 1)) ↔
          (Text.isBlank one = false ∧ isBracket one = false) ∧
            Text.isBlank other = false ∧ isBracket other = false)) ∧
      ∀ joined, Joined (tokens text) joined → tokens joined = tokens text := by
  refine ⟨fun _ hmem ↦ characters_of_mem_tokens hmem, flatten_tokens text,
    fun _ ↦ existsUnique_holdsPlace_iff, fun place one other hone hother ↦ ⟨?_, ?_⟩,
    fun _ hjoined ↦ tokens_of_joined_tokens hjoined⟩
  · rintro ⟨index, hfirst, hsecond⟩
    exact (isWordChar_of_holdsPlace_both hone hother hfirst hsecond).imp isWordChar_iff.mp
      isWordChar_iff.mp
  · rintro ⟨hwordOne, hwordOther⟩
    exact exists_holdsPlace_both hone hother (isWordChar_iff.mpr hwordOne)
      (isWordChar_iff.mpr hwordOther)

/-- A bracket needs no blanks, and it parts the id before it from the number. Other blanks, also at the
bracket, change nothing. -/
theorem tokens_endingWrittenAgain :
    (tokens "A1[2 B]".toList = [['A', '1'], ['['], ['2'], ['B'], [']']] ∧
      (∃ index, HoldsPlace "A1[2 B]".toList index 0 ∧ HoldsPlace "A1[2 B]".toList index 1) ∧
      ¬ ∃ index, HoldsPlace "A1[2 B]".toList index 1 ∧ HoldsPlace "A1[2 B]".toList index 2) ∧
      Joined (tokens "A1[2 B]".toList) "A1\t[2\u3000B]".toList ∧
      tokens "A1\t[2\u3000B]".toList = tokens "A1[2 B]".toList := by
  have htokens : tokens "A1[2 B]".toList = [['A', '1'], ['['], ['2'], ['B'], [']']] := by decide
  have hjoined : Joined (tokens "A1[2 B]".toList) "A1\t[2\u3000B]".toList := by
    rw [htokens]
    have hlast : Joined [['B'], [']']] ['B', ']'] :=
      @Joined.cons _ _ _ [] _ (List.forall_mem_nil _) (.inr (.inr (.inr rfl))) (.single _)
    have hspace : Joined [['2'], ['B'], [']']] ['2', '\u3000', 'B', ']'] :=
      @Joined.cons _ _ _ ['\u3000'] _ (List.forall_mem_singleton.mpr rfl)
        (.inl (List.cons_ne_nil _ _)) hlast
    have hbare : Joined [['['], ['2'], ['B'], [']']] ['[', '2', '\u3000', 'B', ']'] :=
      @Joined.cons _ _ _ [] _ (List.forall_mem_nil _) (.inr (.inl (.inl rfl))) hspace
    exact @Joined.cons _ _ _ ['\t'] _ (List.forall_mem_singleton.mpr rfl)
      (.inl (List.cons_ne_nil _ _)) hbare
  obtain ⟨-, -, -, hneighbours, hstable⟩ := tokens_split_losslessly "A1[2 B]".toList
  have hword := hneighbours 0 'A' '1' rfl rfl
  have hbracket := hneighbours 1 '1' '[' rfl rfl
  exact ⟨⟨htokens, hword.mpr (by decide), fun hone ↦ absurd (hbracket.mp hone) (by decide)⟩, hjoined,
    hstable _ hjoined⟩

end ScoreRepeats.Notation
