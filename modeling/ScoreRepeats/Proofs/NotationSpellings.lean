import ScoreRepeats.Proofs.PlainBars
import ScoreRepeats.Proofs.ReadingSteps
import ScoreRepeats.Proofs.SpacedTokens

/-!
# Spellings of bars

One list of bars has many notations. The markers of a bar are written by short or full names in any
order, the marks of a repeat also between the bars, a length behind any name or not at all if it is
the default, and brackets are opened and closed wherever the variation changes, and elsewhere too
(`Spells`). Blanks stand freely around the tokens (`Spaced`). All these notations are read as the
same bars (`parse_eq_ok_of_spells`).
-/

set_option autoImplicit false
set_option relaxedAutoImplicit false

namespace ScoreRepeats.Notation

open Structure

/-- An id that can be written as it is: it is not empty, has no blanks, brackets and separators in
it, and is no repeat mark. -/
structure IsPlainId (id : String) : Prop where
  nonempty : id ≠ ""
  plain : ∀ char ∈ id.toList, Text.isBlank char = false ∧ char ∉ ['@', '=', '[', ']']
  unmarked : id ≠ "|:" ∧ id ≠ ":|"

instance (id : String) : Decidable (IsPlainId id) :=
  decidable_of_iff (id ≠ "" ∧
      (id.toList.all fun char ↦ !Text.isBlank char && char ∉ ['@', '=', '[', ']']) = true ∧
      id ≠ "|:" ∧ id ≠ ":|") <| by
    simp only [List.all_eq_true, Bool.and_eq_true, Bool.not_eq_true', decide_eq_true_eq]
    exact ⟨fun ⟨hne, hplain, hunmarked⟩ ↦ ⟨hne, hplain, hunmarked⟩,
      fun ⟨hne, hplain, hunmarked⟩ ↦ ⟨hne, hplain, hunmarked⟩⟩

/-- What may stand between bars: the marks of a repeat, and brackets. An opening bracket comes with
the number of the variation. -/
inductive Sign
  | repeatStart | repeatEnd
  | opening (digits : Token)
  | closing
  deriving DecidableEq, Repr

def Sign.tokens : Sign → List Token
  | .repeatStart => [['|', ':']]
  | .repeatEnd => [[':', '|']]
  | .opening digits => [['['], digits]
  | .closing => [[']']]

/-- Signs that lead from one variation to another, or from one to none. -/
inductive Leads : Option Nat → List Sign → Option Nat → Prop
  | stays {variation : Option Nat} : Leads variation [] variation
  | repeatStart {first last : Option Nat} {signs : List Sign} (rest : Leads first signs last) :
      Leads first (.repeatStart :: signs) last
  | repeatEnd {first last : Option Nat} {signs : List Sign} (rest : Leads first signs last) :
      Leads first (.repeatEnd :: signs) last
  | opening {digits : Token} {number : Nat} {last : Option Nat} {signs : List Sign}
      (denotes : Denotes digits number) (positive : 0 < number)
      (rest : Leads (some number) signs last) : Leads none (.opening digits :: signs) last
  | closing {number : Nat} {last : Option Nat} {signs : List Sign} (rest : Leads none signs last) :
      Leads (some number) (.closing :: signs) last

/-- A row of tokens in which bars are written, with signs before the first, between any two and
behind the last. Each bar has the id, the length and the names that are written, and starts or ends
a repeat where that is marked before or behind it. -/
inductive Spells (defaultTicks : Int) : Option Nat → List Sign → List Bar → List Token → Prop
  | nil {variation : Option Nat} {signs : List Sign} (leads : Leads variation signs none)
      (unstarted : .repeatStart ∉ signs) :
      Spells defaultTicks variation signs [] (signs.flatMap Sign.tokens)
  | cons {variation : Option Nat} {signs next : List Sign} {bar : Bar} {bars : List Bar}
      {spelling : Spelling} {row : List Token} (leads : Leads variation signs bar.variation)
      (readable : spelling.IsReadable)
      (written : (Draft.ofBar bar).IsReadFrom spelling defaultTicks (.repeatStart ∈ signs)
        (.repeatEnd ∈ next))
      (rest : Spells defaultTicks bar.variation next bars row) :
      Spells defaultTicks variation signs (bar :: bars)
        (signs.flatMap Sign.tokens ++ spelling.token :: row)

variable {defaultTicks : Int} {variation first last : Option Nat} {signs : List Sign}
  {bars : List Bar} {row : List Token} {spelling : Spelling} {reading : Reading}

/-! ### Words -/

/-- A number is written in characters of words. -/
theorem Denotes.isWordChar {digits : List Char} {number : Int} (h : Denotes digits number)
    {char : Char} (hchar : char ∈ digits) : isWordChar char = true := by
  obtain ⟨value, -, hwritten⟩ := h
  have hdigit := Text.isDigit_of_isDecimal (hwritten.decimal char hchar)
  have hblank : Text.isBlank char = false := by
    by_contra hblank
    rw [Bool.not_eq_false] at hblank
    rw [Text.isDigit_eq_false_of_isBlank hblank] at hdigit
    cases hdigit
  have hbracket : isBracket char = false := by
    by_contra hbracket
    simp only [isBracket, Bool.not_eq_false, Bool.or_eq_true, beq_iff_eq] at hbracket
    rcases hbracket with rfl | rfl <;> exact absurd hdigit (by decide)
  rw [Notation.isWordChar, hblank, hbracket]
  rfl

/-- The names of markers have only characters of words. -/
theorem IsNameOf.isWordChar {name : String} {marker : Marker} (h : IsNameOf name marker)
    {char : Char} (hchar : char ∈ name.toList) : isWordChar char = true := by
  have halias : ∀ pair ∈ aliases, IsWord pair.1.toList := by decide
  have hname : ∀ marker ∈ Marker.all, IsWord marker.name.toList := by decide
  rcases h with hpair | rfl
  · exact (halias _ hpair).2 char hchar
  · exact (hname marker marker.mem_all).2 char hchar

/-- A plain id has only characters of words. -/
theorem IsPlainId.isWordChar {id : String} (h : IsPlainId id) {char : Char}
    (hchar : char ∈ id.toList) : isWordChar char = true := by
  obtain ⟨hblank, hseparator⟩ := h.plain char hchar
  simp_all [Notation.isWordChar, isBracket]

/-- The token of a bar with a plain id is a word. -/
theorem Spelling.IsReadable.isWord_token (h : spelling.IsReadable)
    (hid : IsPlainId (String.ofList spelling.idField.name)) : IsWord spelling.token := by
  have hname : ∀ field ∈ spelling.fields, ∀ char ∈ field.name, isWordChar char = true := by
    intro field hfield char hchar
    rcases List.mem_cons.mp hfield with rfl | hmarker
    · exact hid.isWordChar (by simpa using hchar)
    · obtain ⟨marker, hmarker⟩ := h.known field hmarker
      exact hmarker.isWordChar (by simpa using hchar)
  have htext : ∀ field ∈ spelling.fields, ∀ char ∈ field.text, isWordChar char = true := by
    intro field hfield char hchar
    rw [Field.text, List.mem_append] at hchar
    rcases hchar with hchar | hchar
    · exact hname field hfield char hchar
    · cases hlength : field.length with
      | none => simp [hlength] at hchar
      | some digits =>
        rw [hlength] at hchar
        obtain ⟨number, hdenotes⟩ := h.measured field hfield digits hlength
        rcases List.mem_cons.mp hchar with rfl | hdigit
        · decide
        · exact hdenotes.isWordChar hdigit
  constructor
  · intro hnil
    have hfields := Spelling.fields_token h.plain
    rw [hnil] at hfields
    refine h.named ?_
    rw [← (List.cons.inj hfields).1]
    rfl
  · intro char hchar
    rcases mem_intercalate_iff.mp hchar with ⟨hseparator, -⟩ | ⟨text, htext', hchar⟩
    · rw [List.mem_singleton.mp hseparator]
      decide
    · obtain ⟨field, hfield, rfl⟩ := List.mem_map.mp htext'
      exact htext field hfield char hchar

/-- Signs are brackets and words. -/
theorem Leads.isWord (h : Leads first signs last) :
    ∀ token ∈ signs.flatMap Sign.tokens, IsBracketToken token ∨ IsWord token := by
  induction h with
  | stays => exact List.forall_mem_nil _
  | repeatStart _ ih => exact List.forall_mem_cons.mpr ⟨.inr (by decide), ih⟩
  | repeatEnd _ ih => exact List.forall_mem_cons.mpr ⟨.inr (by decide), ih⟩
  | opening denotes _ _ ih =>
    have hword : IsWord _ := ⟨denotes.ne_nil, fun _ hchar ↦ denotes.isWordChar hchar⟩
    exact List.forall_mem_cons.mpr ⟨.inl (.inl rfl), List.forall_mem_cons.mpr ⟨.inr hword, ih⟩⟩
  | closing _ ih => exact List.forall_mem_cons.mpr ⟨.inl (.inr rfl), ih⟩

/-- A row in which bars with plain ids are written is one of brackets and words. -/
theorem Spells.isWord (h : Spells defaultTicks variation signs bars row)
    (hids : ∀ bar ∈ bars, IsPlainId bar.id) :
    ∀ token ∈ row, IsBracketToken token ∨ IsWord token := by
  induction h with
  | nil leads _ => exact leads.isWord
  | cons leads readable written _ ih =>
    rw [List.forall_mem_cons] at hids
    rw [List.forall_mem_append, List.forall_mem_cons]
    exact ⟨leads.isWord, .inr (readable.isWord_token (written.id ▸ hids.1)), ih hids.2⟩

/-! ### Reading the signs -/

/-- The place in a variation. -/
def Place.ofVariation : Option Nat → Place
  | none => .outside
  | some number => .inside number

theorem Place.ofVariation_ne_afterBracket (variation : Option Nat) :
    ofVariation variation ≠ .afterBracket := by
  cases variation <;> simp [ofVariation]

/-- The end of a repeat on the latest draft. -/
def markLatest : List Draft → List Draft
  | [] => []
  | latest :: earlier => latest.mark .repeatEnd :: earlier

theorem markLatest_markLatest (drafts : List Draft) :
    markLatest (markLatest drafts) = markLatest drafts := by
  cases drafts with
  | nil => rfl
  | cons latest earlier =>
    have hmarkers : (latest.markers.insert .repeatEnd).insert .repeatEnd =
        latest.markers.insert .repeatEnd := MarkerSet.ext fun marker ↦ by simp
    simp [markLatest, Draft.mark, hmarkers]

/-- A reading behind signs. -/
def Reading.afterSigns (reading : Reading) (signs : List Sign) (variation : Option Nat) :
    Reading where
  drafts := if .repeatEnd ∈ signs then markLatest reading.drafts else reading.drafts
  startsRepeat := reading.startsRepeat || decide (.repeatStart ∈ signs)
  place := .ofVariation variation

/-- Signs are read where they lead. -/
theorem foldlM_signs (h : Leads first signs last) (hplace : reading.place = .ofVariation first)
    (hdrafts : .repeatEnd ∈ signs → reading.drafts ≠ []) :
    (signs.flatMap Sign.tokens).foldlM (Reading.take defaultTicks) reading =
      .ok (reading.afterSigns signs last) := by
  have hne : ∀ variation, Place.ofVariation variation ≠ .afterBracket :=
    Place.ofVariation_ne_afterBracket
  induction h generalizing reading with
  | stays =>
    rw [Reading.afterSigns, ← hplace]
    simp
    rfl
  | repeatStart _ ih =>
    have hrole : reading.role ['|', ':'] = .repeatStart :=
      Reading.role_eq_ofToken (by rw [hplace]; exact hne _)
    simp only [List.flatMap_cons, Sign.tokens, List.singleton_append]
    rw [Reading.foldlM_cons_of_takes (.repeatStart hrole)]
    refine (ih ?_ ?_).trans (congrArg Except.ok ?_)
    · exact hplace
    · simpa using hdrafts
    · simp [Reading.afterSigns]
  | repeatEnd _ ih =>
    have hrole : reading.role [':', '|'] = .repeatEnd :=
      Reading.role_eq_ofToken (by rw [hplace]; exact hne _)
    obtain ⟨latest, earlier, hlatest⟩ := List.exists_cons_of_ne_nil (hdrafts List.mem_cons_self)
    have hmarked : latest.mark .repeatEnd :: earlier = markLatest reading.drafts := by
      rw [hlatest, markLatest]
    simp only [List.flatMap_cons, Sign.tokens, List.singleton_append]
    rw [Reading.foldlM_cons_of_takes (.repeatEnd hrole hlatest)]
    refine (ih ?_ ?_).trans (congrArg Except.ok ?_)
    · exact hplace
    · simp
    · simp [Reading.afterSigns, hmarked, markLatest_markLatest]
  | opening denotes positive _ ih =>
    have hrole : reading.role ['['] = .opening :=
      Reading.role_eq_ofToken (by rw [hplace]; exact hne _)
    simp only [List.flatMap_cons, Sign.tokens, List.cons_append, List.nil_append]
    rw [Reading.foldlM_cons_of_takes (.opening hrole hplace),
      Reading.foldlM_cons_of_takes (.number (Reading.role_eq_number_iff.mpr rfl) denotes
        (by omega))]
    refine (ih rfl ?_).trans (congrArg Except.ok ?_)
    · simpa using hdrafts
    · simp [Reading.afterSigns]
  | closing _ ih =>
    have hrole : reading.role [']'] = .closing :=
      Reading.role_eq_ofToken (by rw [hplace]; exact hne _)
    simp only [List.flatMap_cons, Sign.tokens, List.singleton_append]
    rw [Reading.foldlM_cons_of_takes (.closing hrole hplace)]
    refine (ih rfl ?_).trans (congrArg Except.ok ?_)
    · simpa using hdrafts
    · simp [Reading.afterSigns]

/-! ### Reading the bars -/

/-- The token of a bar with a plain id is no bracket and no repeat mark. -/
theorem IsPlainId.ofToken_eq_bar (h : IsPlainId (String.ofList spelling.idField.name))
    (hplain : spelling.IsPlain) : Role.ofToken spelling.token = .bar := by
  have hne : ∀ mark ∈ [['['], [']'], ['|', ':'], [':', '|']], spelling.token ≠ mark := by
    intro mark hmark htoken
    have hall : ∀ mark ∈ [['['], [']'], ['|', ':'], [':', '|']],
        (Text.splitAt '@' mark).map Field.ofText = [⟨mark, none⟩] := by decide
    have hfields := Spelling.fields_token hplain
    rw [htoken, hall mark hmark] at hfields
    rw [← (List.cons.inj hfields).1] at h
    simp only [List.mem_cons, List.not_mem_nil, or_false] at hmark
    rcases hmark with rfl | rfl | rfl | rfl
    · exact (h.plain '[' (by decide)).2 (by decide)
    · exact (h.plain ']' (by decide)).2 (by decide)
    · exact h.unmarked.1 rfl
    · exact h.unmarked.2 rfl
  simp [Role.ofToken, hne]

/-- A reading takes the token of a bar, and has its draft with the marks before it. -/
theorem exists_takes_bar (hreadable : spelling.IsReadable)
    (hid : IsPlainId (String.ofList spelling.idField.name))
    (hplace : reading.place = .ofVariation variation) :
    ∃ draft : Draft, reading.Takes defaultTicks spelling.token
        ⟨draft :: reading.drafts, false, reading.place⟩ ∧
      draft.IsReadFrom spelling defaultTicks (reading.startsRepeat = true) False ∧
      draft.variation = variation.map Int.ofNat := by
  have hrole : reading.role spelling.token = .bar := by
    rw [Reading.role_eq_ofToken (by rw [hplace]; exact Place.ofVariation_ne_afterBracket _)]
    exact hid.ofToken_eq_bar hreadable.plain
  obtain ⟨draft, hread, hfrom, hvariation⟩ :=
    Draft.exists_ofToken_eq_ok hreadable defaultTicks reading.place.variation
  refine ⟨_, .bar hrole hread, hfrom.mark_repeatStart reading.startsRepeat, ?_⟩
  have hsame : reading.place.variation = variation.map Int.ofNat := by
    rw [hplace]
    cases variation <;> rfl
  rw [← hsame, ← hvariation]
  split_ifs <;> rfl

/-- The latest draft behind signs. -/
theorem Draft.IsReadFrom.mark_signs {draft : Draft} {starts : Prop}
    (h : draft.IsReadFrom spelling defaultTicks starts False) (signs : List Sign) :
    (if .repeatEnd ∈ signs then draft.mark .repeatEnd else draft).IsReadFrom spelling defaultTicks
      starts (.repeatEnd ∈ signs) := by
  split_ifs with hsigns
  · exact h.mark_repeatEnd.congr Iff.rfl (iff_of_true trivial hsigns)
  · exact h.congr Iff.rfl (iff_of_false not_false hsigns)

/-- A row in which bars are written is read to its end, behind any bars before it. -/
theorem exists_foldlM_of_spells (h : Spells defaultTicks variation signs bars row)
    (hids : ∀ bar ∈ bars, IsPlainId bar.id) (reading : Reading) (earlier : List Bar)
    (hplace : reading.place = .ofVariation variation) (hstarts : reading.startsRepeat = false)
    (hends : .repeatEnd ∈ signs → reading.drafts ≠ [])
    (hdrafts : (reading.afterSigns signs none).drafts.reverse = earlier.map Draft.ofBar) :
    ∃ last, row.foldlM (Reading.take defaultTicks) reading = .ok last ∧
      last.finish = .ok (earlier ++ bars) := by
  -- A bar is complete only behind the signs that follow it, which are read with the next bar. So
  -- the bars before are those of the drafts behind the signs, not of the drafts of the reading.
  induction h generalizing reading earlier with
  | nil leads unstarted =>
    refine ⟨_, foldlM_signs leads hplace hends, Reading.finish_eq_ok_iff.mpr ⟨rfl, ?_, ?_⟩⟩
    · simp [Reading.afterSigns, hstarts, unstarted]
    · rw [List.append_nil]
      exact hdrafts
  | @cons variation signs next bar bars spelling row leads readable written rest ih =>
    rw [List.forall_mem_cons] at hids
    have hid : IsPlainId (String.ofList spelling.idField.name) := written.id ▸ hids.1
    rw [foldlM_append_of_eq_ok (foldlM_signs leads hplace hends)]
    obtain ⟨draft, htakes, hfrom, hvariation⟩ := exists_takes_bar readable hid
      (show (reading.afterSigns signs bar.variation).place = .ofVariation bar.variation from rfl)
    rw [Reading.foldlM_cons_of_takes htakes]
    have hstart : (reading.afterSigns signs bar.variation).startsRepeat = true ↔
        .repeatStart ∈ signs := by simp [Reading.afterSigns, hstarts]
    have hbar : (if .repeatEnd ∈ next then draft.mark .repeatEnd else draft) = .ofBar bar := by
      refine ((hfrom.congr hstart Iff.rfl).mark_signs next).unique written ?_
      rw [Draft.ofBar, ← hvariation]
      split_ifs <;> rfl
    have hearlier : (reading.afterSigns signs bar.variation).drafts.reverse =
        earlier.map Draft.ofBar := hdrafts
    have hnext : ((⟨draft :: (reading.afterSigns signs bar.variation).drafts, false,
        .ofVariation bar.variation⟩ : Reading).afterSigns next none).drafts.reverse =
          (earlier ++ [bar]).map Draft.ofBar := by
      rw [List.map_append, ← hearlier, List.map_singleton, ← hbar, ← List.reverse_cons]
      simp only [Reading.afterSigns, markLatest]
      split_ifs <;> rfl
    obtain ⟨last, hlast, hfinish⟩ :=
      ih hids.2 _ (earlier ++ [bar]) rfl rfl (fun _ ↦ List.cons_ne_nil _ _) hnext
    refine ⟨last, hlast, ?_⟩
    rwa [List.append_assoc, List.singleton_append] at hfinish

/-- Bars are read from the tokens in which they are written. -/
theorem barsOfTokens_of_spells (h : Spells defaultTicks none signs bars row)
    (hids : ∀ bar ∈ bars, IsPlainId bar.id) (hfirst : .repeatEnd ∉ signs) :
    barsOfTokens defaultTicks row = .ok bars := by
  have hnone : (Reading.start.afterSigns signs none).drafts.reverse = [].map Draft.ofBar := by
    rw [Reading.afterSigns, if_neg hfirst]
    rfl
  obtain ⟨last, hlast, hfinish⟩ := exists_foldlM_of_spells h hids .start [] rfl rfl
    (fun hend ↦ absurd hend hfirst) hnone
  exact barsOfTokens_eq_ok_iff.mpr ⟨last, hlast, hfinish⟩

/-- However bars with plain ids are written, and however the tokens are spaced, the notation is read
as these bars. -/
theorem parse_eq_ok_of_spells (bars : List Bar) (defaultTicks : Int) (signs : List Sign)
    (row : List Token) (text : String) (hids : ∀ bar ∈ bars, IsPlainId bar.id)
    (hpositive : 0 < defaultTicks) (hspells : Spells defaultTicks none signs bars row)
    (hfirst : .repeatEnd ∉ signs) (hspaced : Spaced row text.toList) :
    parse text defaultTicks = .ok bars := by
  rw [parse_of_pos hpositive, tokens_eq_of_spaced hspaced (hspells.isWord hids)]
  exact barsOfTokens_of_spells hspells hids hfirst

/-- A repeat with two endings. -/
def barsWithEndings : List Bar :=
  [{ markedBar "A" .segno with
      markers := .ofList [.repeatStart, .segno]
      compatible := by decide
      not_barred := fun h ↦ absurd rfl h },
    { firstEndingBar "B" with ticks := 720, ticks_pos := by decide }, secondEndingWithFine "C"]

/-- The first bar with its length behind a name that is written twice. -/
def spellingOfCommon : Spelling :=
  ⟨⟨['A'], none⟩, [⟨"segno".toList, some ['0', '9', '6', '0']⟩, ⟨"segno".toList, none⟩]⟩

/-- The first ending with a length of its own. -/
def spellingOfEnding : Spelling := ⟨⟨['B'], some ['7', '2', '0']⟩, []⟩

def spellingOfLastEnding : Spelling := ⟨⟨['C'], none⟩, [⟨"fine".toList, none⟩]⟩

/-- The endings behind their common bar, with the marks of the repeat apart from the bars. -/
theorem spells_barsWithEndings : Spells 960 none [.repeatStart] barsWithEndings
    [['|', ':'], spellingOfCommon.token, ['['], ['1'], spellingOfEnding.token, [':', '|'], [']'],
      ['['], ['0', '2'], spellingOfLastEnding.token, [']']] := by
  have hone : Denotes ['1'] (1 : Nat) := ⟨1, rfl, by decide⟩
  have htwo : Denotes ['0', '2'] (2 : Nat) := ⟨2, rfl, by decide⟩
  have hshort : Denotes ['7', '2', '0'] (720 : Nat) := ⟨720, rfl, by decide⟩
  have hfull : Denotes ['0', '9', '6', '0'] (960 : Nat) := ⟨960, rfl, by decide⟩
  have hend : Spells 960 (some 2) [.closing] [] [[']']] := .nil (.closing .stays) (by decide)
  have hlast : Spells 960 (some 1) [.repeatEnd, .closing, .opening ['0', '2']]
      (barsWithEndings.drop 2)
      [[':', '|'], [']'], ['['], ['0', '2'], spellingOfLastEnding.token, [']']] := by
    refine .cons (.repeatEnd (.closing (.opening htwo (by decide) .stays)))
      (by decide : spellingOfLastEnding.IsReadable) ⟨rfl, rfl, fun marker ↦ ?_⟩ hend
    cases marker <;> decide
  have hending : Spells 960 none [.opening ['1']] (barsWithEndings.drop 1)
      [['['], ['1'], spellingOfEnding.token, [':', '|'], [']'], ['['], ['0', '2'],
        spellingOfLastEnding.token, [']']] := by
    refine .cons (.opening hone (by decide) .stays) (by decide : spellingOfEnding.IsReadable)
      ⟨rfl, hshort, fun marker ↦ ?_⟩ hlast
    cases marker <;> decide
  refine .cons (.repeatStart .stays) (by decide : spellingOfCommon.IsReadable)
    ⟨rfl, hfull, fun marker ↦ ?_⟩ hending
  cases marker <;> decide

/-- The endings in a text with blanks of many kinds, and with none at the brackets. -/
theorem parse_barsWithEndings :
    (∀ bar ∈ barsWithEndings, IsPlainId bar.id) ∧
      parse "\t|:  A@segno=0960@segno[ 1\u00a0B=720 :|][02\nC@fine]\u3000" 960 =
        .ok barsWithEndings := by
  have hids : ∀ bar ∈ barsWithEndings, IsPlainId bar.id := by decide
  refine ⟨hids, parse_eq_ok_of_spells _ 960 _ _ _ hids (by decide) spells_barsWithEndings
    (by decide) (tokens_eq_iff_hasTokens.mp ?_).1⟩
  decide

/-! ### Every list of bars -/

/-- Brackets around the bars of a variation, closed and opened where it changes. -/
def signsBetween (first last : Option Nat) : List Sign :=
  match first, last with
  | none, none => []
  | none, some number => [.opening (Nat.toDigits 10 number)]
  | some _, none => [.closing]
  | some _, some number => [.closing, .opening (Nat.toDigits 10 number)]

/-- A token for a bar: its id, behind it a length if there is one, and the full names of markers. -/
def Spelling.ofParts (id : String) (length : Option Nat) (markers : List Marker) : Spelling where
  idField := ⟨id.toList, length.map (Nat.toDigits 10)⟩
  markerFields := markers.map fun marker ↦ ⟨marker.name.toList, none⟩

/-- A bar with its length behind its id, and the full names of its markers. -/
def fullSpelling (bar : Bar) : Spelling where
  idField := ⟨bar.id.toList, some (Nat.toDigits 10 bar.ticks)⟩
  markerFields := bar.markers.toList.map fun marker ↦ ⟨marker.name.toList, none⟩

/-- A bar whose numbers are not too long to be written. -/
structure IsWritable (bar : Bar) : Prop where
  id : IsPlainId bar.id
  ticks : bar.ticks < Nat.pow 10 Numeral.maxDigits
  variation : ∀ number ∈ bar.variation, number < Nat.pow 10 Numeral.maxDigits

theorem denotes_toDigits {number : Nat} (h : number < Nat.pow 10 Numeral.maxDigits) :
    Denotes (Nat.toDigits 10 number) number :=
  ⟨number, rfl, Numeral.isWritten_toDigits number h⟩

/-- A token with a plain id, and with a length that is not too long, makes sense. -/
theorem Spelling.isReadable_ofParts {id : String} (hid : IsPlainId id) {length : Option Nat}
    (hlength : ∀ number ∈ length, number < Nat.pow 10 Numeral.maxDigits) (markers : List Marker) :
    (Spelling.ofParts id length markers).IsReadable where
  plain := by
    have hname : ∀ marker ∈ Marker.all, (⟨marker.name.toList, none⟩ : Field).IsPlain := by decide
    refine List.forall_mem_cons.mpr ⟨⟨fun hat ↦ ?_, fun hequals ↦ ?_⟩, fun field hfield ↦ ?_⟩
    · rw [Field.text, List.mem_append] at hat
      rcases hat with hin | hdigits
      · exact (hid.plain '@' hin).2 (by decide)
      · cases length with
        | none => cases hdigits
        | some number =>
          have hdigit : '@' ∈ Nat.toDigits 10 number :=
            (List.mem_cons.mp hdigits).resolve_left (by decide)
          have hwritten := Numeral.isWritten_toDigits number (hlength number rfl)
          exact absurd (hwritten.decimal _ hdigit) (by decide)
    · exact (hid.plain '=' hequals).2 (by decide)
    · obtain ⟨marker, -, rfl⟩ := List.mem_map.mp hfield
      exact hname marker marker.mem_all
  named := by
    rw [Ne, ← String.toList_empty]
    exact fun hempty ↦ hid.nonempty (String.toList_injective hempty)
  known field hfield := by
    obtain ⟨marker, -, rfl⟩ := List.mem_map.mp hfield
    exact ⟨marker, .inr (String.ofList_toList)⟩
  measured := by
    refine List.forall_mem_cons.mpr ⟨fun digits hdigits ↦ ?_, fun field hfield ↦ ?_⟩
    · obtain ⟨number, hnumber, rfl⟩ := Option.map_eq_some_iff.mp hdigits
      exact ⟨_, denotes_toDigits (hlength number hnumber)⟩
    · obtain ⟨marker, -, rfl⟩ := List.mem_map.mp hfield
      rintro _ ⟨⟩

/-- A bar is read from the token for it, with the default for its length if it has none. -/
theorem Draft.isReadFrom_ofParts {id : String} {length : Option Nat}
    (hlength : ∀ number ∈ length, number < Nat.pow 10 Numeral.maxDigits) (markers : List Marker)
    (variation : Option Int) :
    (⟨id, (length.map Int.ofNat).getD defaultTicks, .ofList markers, variation⟩ : Draft).IsReadFrom
      (.ofParts id length markers) defaultTicks False False where
  id := String.ofList_toList.symm
  ticks := by
    have hlast : (Spelling.ofParts id length markers).lastLength? =
        length.map (Nat.toDigits 10) := by
      have hnone : (Spelling.ofParts id length markers).markerFields.filterMap Field.length = [] := by
        simp [Spelling.ofParts]
      rw [Spelling.lastLength?, Spelling.fields, List.filterMap_cons, hnone]
      cases length <;> rfl
    rw [Spelling.GivesTicks, hlast]
    cases length with
    | none => rfl
    | some number => exact denotes_toDigits (hlength number rfl)
  markers marker := by
    rw [MarkerSet.has_ofList, List.contains_iff_mem]
    simp only [and_false, or_false]
    constructor
    · exact fun hmarker ↦ ⟨_, List.mem_map_of_mem hmarker, .inr String.ofList_toList⟩
    · rintro ⟨field, hfield, hname⟩
      obtain ⟨other, hother, rfl⟩ := List.mem_map.mp hfield
      have hown : IsNameOf (String.ofList other.name.toList) other := .inr String.ofList_toList
      rwa [hown.eq_iff.mpr hname]

theorem repeatMarks_not_mem_signsBetween (first last : Option Nat) :
    .repeatStart ∉ signsBetween first last ∧ .repeatEnd ∉ signsBetween first last := by
  cases first <;> cases last <;> simp [signsBetween]

theorem leads_signsBetween
    (h : ∀ number ∈ last, 0 < number ∧ number < Nat.pow 10 Numeral.maxDigits) :
    Leads first (signsBetween first last) last := by
  cases last with
  | none =>
    cases first with
    | none => exact .stays
    | some earlier => exact .closing .stays
  | some number =>
    obtain ⟨hpositive, hshort⟩ := h number rfl
    have hopens : Leads none [.opening (Nat.toDigits 10 number)] (some number) :=
      .opening (denotes_toDigits hshort) hpositive .stays
    cases first with
    | none => exact hopens
    | some earlier => exact .closing hopens

variable {bar : Bar}

theorem IsWritable.isReadable_fullSpelling (h : IsWritable bar) :
    (fullSpelling bar).IsReadable := by
  have hticks : ∀ number ∈ some bar.ticks, number < Nat.pow 10 Numeral.maxDigits := by
    rintro _ ⟨⟩
    exact h.ticks
  exact Spelling.isReadable_ofParts h.id hticks bar.markers.toList

theorem IsWritable.isReadFrom_fullSpelling (h : IsWritable bar) {starts ends : Prop}
    (hstarts : ¬ starts) (hends : ¬ ends) :
    (Draft.ofBar bar).IsReadFrom (fullSpelling bar) defaultTicks starts ends := by
  have hmarkers : MarkerSet.ofList bar.markers.toList = bar.markers := MarkerSet.ext fun marker ↦ by
    rw [Bool.eq_iff_iff, MarkerSet.has_ofList, List.contains_iff_mem, MarkerSet.mem_toList]
  have hticks : ∀ number ∈ some bar.ticks, number < Nat.pow 10 Numeral.maxDigits := by
    rintro _ ⟨⟩
    exact h.ticks
  have hread := @Draft.isReadFrom_ofParts defaultTicks bar.id (some bar.ticks) hticks
    bar.markers.toList (bar.variation.map Int.ofNat)
  rw [hmarkers] at hread
  exact hread.congr (iff_of_false not_false hstarts) (iff_of_false not_false hends)

/-- The signs before a list of bars in brackets. -/
def signsBefore (variation : Option Nat) : List Bar → List Sign
  | [] => signsBetween variation none
  | bar :: _ => signsBetween variation bar.variation

theorem repeatMarks_not_mem_signsBefore (variation : Option Nat) (bars : List Bar) :
    .repeatStart ∉ signsBefore variation bars ∧ .repeatEnd ∉ signsBefore variation bars := by
  cases bars with
  | nil => exact repeatMarks_not_mem_signsBetween variation none
  | cons bar _ => exact repeatMarks_not_mem_signsBetween variation bar.variation

/-- Bars that can be written by themselves can be written in a row. -/
theorem exists_spells (h : ∀ bar ∈ bars, IsWritable bar) (defaultTicks : Int)
    (variation : Option Nat) :
    ∃ row, Spells defaultTicks variation (signsBefore variation bars) bars row := by
  induction bars generalizing variation with
  | nil =>
    exact ⟨_, .nil (leads_signsBetween (by simp)) (repeatMarks_not_mem_signsBetween _ _).1⟩
  | cons bar bars ih =>
    rw [List.forall_mem_cons] at h
    obtain ⟨row, hrow⟩ := ih h.2 bar.variation
    have hend := (repeatMarks_not_mem_signsBefore bar.variation bars).2
    refine ⟨_, .cons (leads_signsBetween fun number hnumber ↦ ⟨?_, h.1.variation number hnumber⟩)
      h.1.isReadable_fullSpelling
      (h.1.isReadFrom_fullSpelling (repeatMarks_not_mem_signsBetween _ _).1 hend) hrow⟩
    refine Nat.pos_of_ne_zero ?_
    rintro rfl
    exact bar.variation_ne_zero hnumber

/-- Tokens can be spaced. -/
theorem exists_spaced (row : List Token) : ∃ text : List Char, Spaced row text := by
  induction row with
  | nil => exact ⟨[], .nil (List.forall_mem_nil _)⟩
  | cons token rest ih =>
    obtain ⟨text, htext⟩ := ih
    have hblank : ∀ char ∈ [' '], Text.isBlank char = true := List.all_eq_true.mp (by decide)
    refine ⟨_, .cons (List.forall_mem_nil _) (.inr ?_) (htext.blank_append hblank)⟩
    rintro _ ⟨⟩
    rfl

/-- Every list of bars with plain ids and numbers that are not too long has a notation. -/
theorem exists_parse_eq_ok (h : ∀ bar ∈ bars, IsWritable bar) (hpositive : 0 < defaultTicks) :
    ∃ text, parse text defaultTicks = .ok bars := by
  obtain ⟨row, hrow⟩ := exists_spells h defaultTicks none
  obtain ⟨text, htext⟩ := exists_spaced row
  have hids : ∀ bar ∈ bars, IsPlainId bar.id := fun bar hbar ↦ (h bar hbar).id
  have hfirst := (repeatMarks_not_mem_signsBefore none bars).2
  refine ⟨String.ofList text, ?_⟩
  rw [parse_of_pos hpositive, String.toList_ofList,
    tokens_eq_of_spaced htext (hrow.isWord hids)]
  exact barsOfTokens_of_spells hrow hids hfirst

end ScoreRepeats.Notation
