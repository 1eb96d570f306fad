import ScoreRepeats.Proofs.FieldTypes
import ScoreRepeats.Proofs.NotationSpellings

/-!
# The two forms of a score file

A score file lists its bars or gives them in bar notation. What either form says of a bar is the same
(`BarListing`): an id, a length or none, markers, and the number of a variation or none. A list says
it by the entries of a mapping (`BarListing.IsListedBy`), a notation by a token in brackets or without
(`BarListing.written`). The two readers share little more than the check of a finished bar. Yet for a
bar that can be written down both find it just if it has what is said, and a full bar of the rhythm
for its length if none is given (`BarListing.read_eq_ok_iff`, `BarListing.parse_writtenScore_eq_ok_iff`).
-/

set_option autoImplicit false
set_option relaxedAutoImplicit false

namespace ScoreRepeats

/-- What is said about a bar: its id, its length if it has one of its own, the names of its markers
and the number of its variation. -/
structure BarListing where
  id : String
  ticks : Option Nat
  markers : List Marker
  variation : Option Nat
  deriving DecidableEq, Repr

namespace BarListing

/-- The entries of a mapping that say this about a bar. Where there are no markers, or no variation,
the entry may be missing or hold nothing. -/
structure IsListedBy (listing : BarListing) (fields : List (Value × Value)) : Prop where
  id : Value.entry? "id" fields = some (.text listing.id)
  ticks : Value.entry? "ticks" fields = listing.ticks.map fun number ↦ .int number
  markers : Value.entry? "markers" fields =
      some (.list (listing.markers.map fun marker ↦ .text marker.name)) ∨
    listing.markers = [] ∧
      (Value.entry? "markers" fields = none ∨ Value.entry? "markers" fields = some .null)
  variation : Value.entry? "variation" fields = listing.variation.map (fun number ↦ .int number) ∨
    listing.variation = none ∧ Value.entry? "variation" fields = some .null

/-- An entry of a list that says this about a bar. -/
def IsListedIn (listing : BarListing) (entry : Value) : Prop :=
  ∃ fields, entry.entries? = some fields ∧ listing.IsListedBy fields

/-- The same in bar notation: the id, an equals sign and the length, an at sign and the name for each
marker, and around this the brackets of the variation. -/
def written (listing : BarListing) : String :=
  let length := match listing.ticks with
    | none => ""
    | some number => "=" ++ toString number
  let bar := listing.id ++ length ++
    String.join (listing.markers.map fun marker ↦ "@" ++ marker.name)
  match listing.variation with
  | none => bar
  | some number => "[" ++ toString number ++ " " ++ bar ++ "]"

/-- The bars of a score in bar notation, with this text between each and the next. -/
def writtenScore (separator : String) (listings : List BarListing) : String :=
  separator.intercalate (listings.map written)

/-- What can be said in bar notation: the id is plain, and the numbers are positive and not too long
to be written. -/
structure IsWritable (listing : BarListing) : Prop where
  id : Notation.IsPlainId listing.id
  ticks : ∀ number ∈ listing.ticks, 0 < number ∧ number < Nat.pow 10 Numeral.maxDigits
  variation : ∀ number ∈ listing.variation, 0 < number ∧ number < Nat.pow 10 Numeral.maxDigits

/-- A bar as it is said, with a full bar for its length unless one is given. -/
structure Gives (fullBar : Nat) (listing : BarListing) (bar : Bar) : Prop where
  id : bar.id = listing.id
  ticks : bar.ticks = listing.ticks.getD fullBar
  markers : bar.markers = .ofList listing.markers
  variation : bar.variation = listing.variation

variable {listing : BarListing} {fields : List (Value × Value)} {room fullBar : Nat} {bar : Bar}

/-- The parts of a bar as numbers with a sign. -/
theorem gives_iff_parts : listing.Gives fullBar bar ↔
    bar.id = listing.id ∧ (bar.ticks : Int) = (listing.ticks.map Int.ofNat).getD fullBar ∧
      bar.markers = .ofList listing.markers ∧
      bar.variation.map Int.ofNat = listing.variation.map Int.ofNat := by
  have hticks : (listing.ticks.map Int.ofNat).getD (fullBar : Int) =
      (listing.ticks.getD fullBar : Nat) := by cases listing.ticks <;> rfl
  have hinjective : Function.Injective (Option.map Int.ofNat) :=
    Option.map_injective fun _ _ h ↦ Int.ofNat.inj h
  rw [hticks, Int.natCast_inj, hinjective.eq_iff]
  exact ⟨fun h ↦ ⟨h.id, h.ticks, h.markers, h.variation⟩,
    fun ⟨hid, hticks, hmarkers, hvariation⟩ ↦ ⟨hid, hticks, hmarkers, hvariation⟩⟩

/-! ### Reading a list -/

theorem IsListedBy.ticks_eq (h : listing.IsListedBy fields) (id : Value) :
    BarEntry.ticks room fullBar id fields = .ok ((listing.ticks.map Int.ofNat).getD fullBar) := by
  rw [BarEntry.ticks_eq_ok_iff, h.ticks]
  cases listing.ticks <;> simp

theorem IsListedBy.markers_eq (h : listing.IsListedBy fields) (id : Value) :
    BarEntry.markers room id fields = .ok (listing.markers.map Marker.name) := by
  rw [BarEntry.markers_eq_ok_iff]
  rcases h.markers with hlist | ⟨hnone, hmissing | hnull⟩
  · exact .inl ⟨_, hlist, .inl (by simp)⟩
  · exact .inr ⟨hmissing, by rw [hnone]; rfl⟩
  · exact .inl ⟨_, hnull, .inr ⟨rfl, by rw [hnone]; rfl⟩⟩

theorem IsListedBy.variation_eq (h : listing.IsListedBy fields) (id : Value) :
    BarEntry.variation room id fields = .ok (listing.variation.map Int.ofNat) := by
  rw [BarEntry.variation_eq_ok_iff]
  rcases h.variation with hnumber | ⟨hnone, hnull⟩
  · exact .inl (by rw [hnumber, Option.map_map]; rfl)
  · exact .inr ⟨hnull, by rw [hnone]; rfl⟩

/-- An entry of a list is read as the bar that it tells of. -/
theorem read_eq_ok_iff {entry : Value} (hlisted : listing.IsListedIn entry) :
    BarEntry.read room fullBar entry = .ok bar ↔ listing.Gives fullBar bar := by
  obtain ⟨fields, hfields, h⟩ := hlisted
  have hread : (Value.text listing.id).read room = .ok listing.id := rfl
  have hinjective : Function.Injective (List.map Marker.name) :=
    List.map_injective_iff.mpr fun _ _ ↦ Marker.name_injective
  unfold BarEntry.read
  simp only [hfields, h.id, h.ticks_eq, h.markers_eq, h.variation_eq, hread, bind, Except.bind]
  rw [mapError_eq_ok_iff, Bar.make_eq_ok_iff, gives_iff_parts]
  simp only [hinjective.eq_iff, exists_eq_left']

/-! ### Reading a notation -/

open Notation

/-- The token of a bar. -/
def spelling (listing : BarListing) : Spelling :=
  .ofParts listing.id listing.ticks listing.markers

/-- The tokens of a bar, its own and those of the brackets around it. -/
def row (listing : BarListing) : List Token :=
  match listing.variation with
  | none => [listing.spelling.token]
  | some number => [['['], Nat.toDigits 10 number, listing.spelling.token, [']']]

/-- The draft that is read from the tokens of a bar. -/
def draft (fullBar : Int) (listing : BarListing) : Draft :=
  ⟨listing.id, (listing.ticks.map Int.ofNat).getD fullBar, .ofList listing.markers,
    listing.variation.map Int.ofNat⟩

theorem intercalate_cons (separator : Char) (first : List Char) (rest : List (List Char)) :
    [separator].intercalate (first :: rest) = first ++ rest.flatMap (separator :: ·) := by
  induction rest generalizing first with
  | nil => simp
  | cons second more ih => rw [List.intercalate_cons_cons, ih]; simp

/-- What is written of a bar, character by character. -/
theorem toList_written (listing : BarListing) : listing.written.toList =
    match listing.variation with
    | none => listing.spelling.token
    | some number =>
      '[' :: (Nat.toDigits 10 number ++ ' ' :: (listing.spelling.token ++ [']'])) := by
  have hmarks : (listing.markers.map fun marker ↦ "@" ++ marker.name).flatMap String.toList =
      (listing.spelling.markerFields.map Field.text).flatMap ('@' :: ·) := by
    simp [spelling, Spelling.ofParts, List.flatMap_map, Field.text]
  have htoken : listing.spelling.token = listing.id.toList ++ (match listing.ticks with
      | none => []
      | some number => '=' :: Nat.toDigits 10 number) ++
      (listing.markers.map fun marker ↦ "@" ++ marker.name).flatMap String.toList := by
    rw [hmarks, Spelling.token, Spelling.fields, List.map_cons, intercalate_cons]
    cases hticks : listing.ticks <;> simp [spelling, Spelling.ofParts, Field.text, hticks]
  cases hvariation : listing.variation <;> cases hticks : listing.ticks <;>
    simp [written, hvariation, hticks, htoken, String.toList_join]

theorem IsWritable.isReadable_spelling (h : listing.IsWritable) : listing.spelling.IsReadable :=
  Spelling.isReadable_ofParts h.id (fun number hnumber ↦ (h.ticks number hnumber).2) _

/-- The name in the token is the id. -/
theorem idField_spelling (listing : BarListing) :
    String.ofList listing.spelling.idField.name = listing.id :=
  String.ofList_toList

/-- The tokens of a bar are brackets and words. -/
theorem IsWritable.isWord_row (h : listing.IsWritable) :
    ∀ token ∈ listing.row, IsBracketToken token ∨ IsWord token := by
  have hbar : IsWord listing.spelling.token :=
    h.isReadable_spelling.isWord_token (listing.idField_spelling ▸ h.id)
  cases hvariation : listing.variation with
  | none => simp [row, hvariation, hbar]
  | some number =>
    have hdenotes := denotes_toDigits (h.variation number hvariation).2
    have hnumber : IsWord (Nat.toDigits 10 number) :=
      ⟨hdenotes.ne_nil, fun _ hchar ↦ hdenotes.isWordChar hchar⟩
    simp [row, hvariation, hbar, hnumber, IsBracketToken]

/-- The tokens of a bar are spaced in what is written of it, if no word follows at once. -/
theorem spaced_row (listing : BarListing) {rest : List Token} {text : List Char}
    (h : Spaced rest text) (hnext : ∀ char ∈ text.head?, isWordChar char = false) :
    Spaced (listing.row ++ rest) (listing.written.toList ++ text) := by
  have hnil : ∀ char ∈ ([] : List Char), Text.isBlank char = true := List.forall_mem_nil _
  rw [toList_written]
  cases hvariation : listing.variation with
  | none =>
    rw [row, hvariation]
    exact .cons hnil (.inr hnext) h
  | some number =>
    have hclosing : Spaced ([']'] :: rest) (']' :: text) := .cons hnil (.inl (.inr rfl)) h
    have hbar : Spaced (listing.spelling.token :: [']'] :: rest)
        (listing.spelling.token ++ ']' :: text) := .cons hnil (.inr (by simp; decide)) hclosing
    have hblank : ∀ char ∈ [' '], Text.isBlank char = true := List.all_eq_true.mp (by decide)
    have hnumber : Spaced (Nat.toDigits 10 number :: listing.spelling.token :: [']'] :: rest)
        (Nat.toDigits 10 number ++ ' ' :: (listing.spelling.token ++ ']' :: text)) :=
      .cons hnil (.inr (by simp; decide)) (hbar.blank_append hblank)
    have hopening : Spaced (['['] :: Nat.toDigits 10 number :: listing.spelling.token :: [']'] :: rest)
        ('[' :: (Nat.toDigits 10 number ++ ' ' :: (listing.spelling.token ++ ']' :: text))) :=
      .cons hnil (.inl (.inl rfl)) hnumber
    simpa [row, hvariation] using hopening

/-- The tokens of all bars are spaced in a notation, if blanks separate one bar from the next. -/
theorem spaced_writtenScore {separator : String} (hne : separator ≠ "")
    (hblank : ∀ char ∈ separator.toList, Text.isBlank char = true) (listings : List BarListing) :
    Spaced (listings.flatMap row) (writtenScore separator listings).toList := by
  rw [writtenScore, String.toList_intercalate]
  induction listings with
  | nil => exact .nil (List.forall_mem_nil _)
  | cons first rest ih =>
    cases rest with
    | nil =>
      have hlast := first.spaced_row (.nil (List.forall_mem_nil _)) (by simp)
      simpa using hlast
    | cons second more =>
      have hseparator : separator.toList ≠ [] := fun h ↦ hne (String.toList_injective h)
      have hnext := ih.blank_append hblank
      have hfirst := first.spaced_row hnext ?_
      · simpa [List.intercalate_cons_cons] using hfirst
      · intro char hchar
        rw [List.head?_append_of_ne_nil _ hseparator] at hchar
        exact isWordChar_eq_false_of_isBlank (hblank char (List.mem_of_mem_head? hchar))

variable {reading : Reading}

/-- The token of a bar is taken in the variation of the bar. -/
theorem IsWritable.takes_token (h : listing.IsWritable)
    (hplace : reading.place = .ofVariation listing.variation) (hstarts : reading.startsRepeat = false) :
    reading.Takes fullBar listing.spelling.token
      ⟨listing.draft fullBar :: reading.drafts, false, reading.place⟩ := by
  obtain ⟨draft, htakes, hfrom, hvariation⟩ := exists_takes_bar h.isReadable_spelling
    (listing.idField_spelling ▸ h.id) hplace
  have hown := @Draft.isReadFrom_ofParts fullBar listing.id listing.ticks
    (fun number hnumber ↦ (h.ticks number hnumber).2) listing.markers
    (listing.variation.map Int.ofNat)
  have hdraft : draft = listing.draft fullBar :=
    (hfrom.congr (by simp [hstarts]) Iff.rfl).unique hown hvariation
  rwa [hdraft] at htakes

/-- The tokens of a bar are read outside of brackets, and outside of brackets they end. -/
theorem IsWritable.foldlM_row (h : listing.IsWritable) (hplace : reading.place = .outside)
    (hstarts : reading.startsRepeat = false) :
    listing.row.foldlM (Reading.take fullBar) reading =
      .ok ⟨listing.draft fullBar :: reading.drafts, false, .outside⟩ := by
  cases hvariation : listing.variation with
  | none =>
    have htakes := @takes_token listing fullBar reading h (by rw [hvariation]; exact hplace) hstarts
    rw [row, hvariation, Reading.foldlM_cons_of_takes htakes, hplace]
    rfl
  | some number =>
    obtain ⟨hpositive, hshort⟩ := h.variation number hvariation
    have hopening : reading.role ['['] = .opening :=
      Reading.role_eq_ofToken (by simp [hplace])
    rw [row, hvariation]
    dsimp only
    rw [Reading.foldlM_cons_of_takes (.opening hopening hplace),
      Reading.foldlM_cons_of_takes (.number (Reading.role_eq_number_iff.mpr rfl)
        (denotes_toDigits hshort) (by omega))]
    dsimp only
    have hinside : Place.inside (number : Int) = .ofVariation listing.variation := by
      rw [hvariation]
      rfl
    have hbar := @takes_token listing fullBar
      ⟨reading.drafts, reading.startsRepeat, .inside number⟩ h hinside hstarts
    have hclosing : Reading.role ⟨listing.draft fullBar :: reading.drafts, false,
        .inside (number : Int)⟩ [']'] = .closing := Reading.role_eq_ofToken (by simp)
    rw [Reading.foldlM_cons_of_takes hbar, Reading.foldlM_cons_of_takes (.closing hclosing rfl)]
    rfl

/-- The tokens of all bars are read one bar after the other. -/
theorem foldlM_rows {listings : List BarListing} (h : ∀ listing ∈ listings, listing.IsWritable)
    (hplace : reading.place = .outside) (hstarts : reading.startsRepeat = false) :
    (listings.flatMap row).foldlM (Reading.take fullBar) reading =
      .ok ⟨(listings.map (draft fullBar)).reverse ++ reading.drafts, false, .outside⟩ := by
  induction listings generalizing reading with
  | nil =>
    rw [← hplace, ← hstarts]
    rfl
  | cons listing rest ih =>
    obtain ⟨hfirst, hrest⟩ := List.forall_mem_cons.mp h
    rw [List.flatMap_cons, foldlM_append_of_eq_ok (hfirst.foldlM_row hplace hstarts),
      ih hrest rfl rfl]
    simp

/-- A draft is that of a bar just if the bar is as it is said. -/
theorem draft_eq_ofBar_iff : listing.draft fullBar = Draft.ofBar bar ↔ listing.Gives fullBar bar := by
  rw [gives_iff_parts, draft, Draft.ofBar, Draft.mk.injEq]
  simp only [eq_comm]

/-- What is written of bars is read as the bars that it tells of. -/
theorem parse_writtenScore_eq_ok_iff {listings : List BarListing} {bars : List Bar}
    {separator : String} (h : ∀ listing ∈ listings, listing.IsWritable) (hfull : 0 < fullBar)
    (hne : separator ≠ "") (hblank : ∀ char ∈ separator.toList, Text.isBlank char = true) :
    parse (writtenScore separator listings) fullBar = .ok bars ↔
      List.Forall₂ (Gives fullBar) listings bars := by
  have hwords : ∀ token ∈ listings.flatMap row, IsBracketToken token ∨ IsWord token := by
    intro token htoken
    obtain ⟨listing, hlisting, hin⟩ := List.mem_flatMap.mp htoken
    exact (h listing hlisting).isWord_row token hin
  have hdrafts : listings.map (draft fullBar) = bars.map Draft.ofBar ↔
      List.Forall₂ (Gives fullBar) listings bars := by
    rw [← List.forall₂_eq_eq_eq, List.forall₂_map_left_iff, List.forall₂_map_right_iff]
    simp only [draft_eq_ofBar_iff]
  rw [parse_of_pos (Int.natCast_pos.mpr hfull),
    tokens_eq_of_spaced (spaced_writtenScore hne hblank listings) hwords, barsOfTokens,
    foldlM_rows h rfl rfl, ← hdrafts]
  simp [Reading.finish_eq_ok_iff, Reading.start]

end BarListing

/-! ### Reading a file -/

/-- An entry is looked for in the first part of a mapping and then in the second. -/
theorem Value.entry?_append (name : String) (first second : List (Value × Value)) :
    Value.entry? name (first ++ second) =
      (Value.entry? name first).or (Value.entry? name second) := by
  induction first with
  | nil => rfl
  | cons pair rest ih =>
    obtain ⟨key, value⟩ := pair
    rw [List.cons_append, entry?, entry?, ih]
    split_ifs <;> rfl

/-- A full bar is not empty. -/
theorem Rhythm.fullBar_pos (rhythm : Rhythm) : 0 < rhythm.fullBar := by
  have hdenominators : ∀ denominator ∈ Rhythm.denominators,
      0 < denominator ∧ denominator ≤ ticksPerWhole := by decide
  obtain ⟨hpos, hle⟩ := hdenominators _ rhythm.denominator_mem
  have hnumerator : 1 ≤ rhythm.numerator := rhythm.numerator_range.1
  exact Nat.div_pos (hle.trans (Nat.le_mul_of_pos_left _ hnumerator)) hpos

namespace Score

/-- A score file that declares something and gives its bars in one form. -/
def fileWith (declared : List (Value × Value)) (form : String) (value : Value) : Value :=
  .mapping (declared ++ [(.text form, value)])

variable {declared : List (Value × Value)} {form : String} {value : Value} {score : Score}
  {room : Nat}

/-- Other entries of the file are those that are declared. -/
theorem entry?_fileWith_of_ne {name : String} (hne : form ≠ name) :
    Value.entry? name (declared ++ [(.text form, value)]) = Value.entry? name declared := by
  have hother : Value.entry? name [(.text form, value)] = none := by
    simp [Value.entry?, Value.sameKey, hne]
  rw [Value.entry?_append, hother, Option.or_none]

/-- The bars are under the name of their form. -/
theorem entry?_fileWith_self (hnone : Value.entry? form declared = none) :
    Value.entry? form (declared ++ [(.text form, value)]) = some value := by
  rw [Value.entry?_append, hnone, Option.none_or]
  simp [Value.entry?, Value.sameKey]

/-- A file is read as a score just if the rhythm, the bars and the pickup are read from it. -/
theorem ofValue_fileWith_eq_ok_iff (hrhythm : form ≠ "rhythm") (hauftakt : form ≠ "auftakt") :
    ofValue room (fileWith declared form value) = .ok score ↔ readRhythm room declared = .ok score.rhythm ∧
      readForm room score.rhythm.fullBar (declared ++ [(.text form, value)]) = .ok score.bars ∧
      ((Value.entry? "auftakt" declared).map Value.isTrue).getD false = score.auftakt := by
  have hread : readRhythm room (declared ++ [(.text form, value)]) = readRhythm room declared := by
    rw [readRhythm, readRhythm, entry?_fileWith_of_ne hrhythm]
  unfold ofValue
  rw [fileWith, Value.entries?_mapping]
  dsimp only
  rw [hread, entry?_fileWith_of_ne hauftakt, bind_eq_ok_iff]
  simp only [bind_eq_ok_iff]
  constructor
  · rintro ⟨rhythm, hdeclared, bars, hbars, ⟨⟩⟩
    exact ⟨hdeclared, hbars, rfl⟩
  · rintro ⟨hdeclared, hbars, htrue⟩
    exact ⟨_, hdeclared, _, hbars, by rw [htrue]; rfl⟩

variable {listings : List BarListing} {entries : List Value} {bars : List Bar} {fullBar : Nat}

/-- A list of entries is read as the bars that it tells of. -/
theorem readBars_eq_ok_iff (hlisted : List.Forall₂ BarListing.IsListedIn listings entries) :
    readBars room fullBar (.list entries) = .ok bars ↔
      List.Forall₂ (BarListing.Gives fullBar) listings bars := by
  rw [readBars_of_lists (.inl rfl), mapM_eq_ok_iff]
  induction hlisted generalizing bars with
  | nil => rw [List.forall₂_nil_left_iff, List.forall₂_nil_left_iff]
  | cons hfirst _ ih =>
    rw [List.forall₂_cons_left_iff, List.forall₂_cons_left_iff]
    simp only [BarListing.read_eq_ok_iff hfirst, ih]

/-- A score file may list its bars or give them in bar notation: with the same to say of each bar it
is read as the same score, or in neither form as a score. The bars of the score are as they are said,
and full bars of its rhythm where no length is given. -/
theorem ofValue_bars_iff_ofValue_notation (declared : List (Value × Value))
    (listings : List BarListing) (entries : List Value) (separator : String) (score : Score)
    (room : Nat)
    (hnoBars : Value.entry? "bars" declared = none)
    (hnoText : Value.entry? "notation" declared = none)
    (hlisted : List.Forall₂ BarListing.IsListedIn listings entries)
    (hwritable : ∀ listing ∈ listings, listing.IsWritable) (hne : separator ≠ "")
    (hblank : ∀ char ∈ separator.toList, Text.isBlank char = true) :
    (ofValue room (fileWith declared "bars" (.list entries)) = .ok score ↔
      ofValue room (fileWith declared "notation" (.text (BarListing.writtenScore separator listings))) =
        .ok score) ∧
    (ofValue room (fileWith declared "bars" (.list entries)) = .ok score →
      List.Forall₂ (BarListing.Gives score.rhythm.fullBar) listings score.bars) := by
  have hlist : readForm room score.rhythm.fullBar (declared ++ [(.text "bars", .list entries)]) =
      .ok score.bars ↔ List.Forall₂ (BarListing.Gives score.rhythm.fullBar) listings score.bars := by
    rw [readForm, entry?_fileWith_of_ne (by decide), hnoText, entry?_fileWith_self hnoBars]
    exact readBars_eq_ok_iff hlisted
  have hwritten : readForm room score.rhythm.fullBar (declared ++
      [(.text "notation", .text (BarListing.writtenScore separator listings))]) = .ok score.bars ↔
        List.Forall₂ (BarListing.Gives score.rhythm.fullBar) listings score.bars := by
    rw [readForm, entry?_fileWith_self hnoText, entry?_fileWith_of_ne (by decide), hnoBars,
      ← BarListing.parse_writtenScore_eq_ok_iff hwritable score.rhythm.fullBar_pos hne hblank]
    exact mapError_eq_ok_iff
  rw [ofValue_fileWith_eq_ok_iff (by decide) (by decide), hlist,
    ofValue_fileWith_eq_ok_iff (by decide) (by decide), hwritten]
  exact ⟨Iff.rfl, fun h ↦ h.2.1⟩

/-- What is said of a repeat with two endings, the first of them with a length of its own. -/
def listingsWithEndings : List BarListing :=
  [⟨"A", none, [.repeatStart], none⟩, ⟨"B", some 960, [.repeatEnd], some 1⟩, ⟨"C", none, [], some 2⟩]

/-- The repeat with two endings as a list. -/
def entriesWithEndings : List Value :=
  [.mapping [(.text "id", .text "A"), (.text "markers", .list [.text "repeat_start"])],
    .mapping [(.text "id", .text "B"), (.text "ticks", .int 960), (.text "variation", .int 1),
      (.text "markers", .list [.text "repeat_end"])],
    .mapping [(.text "variation", .int 2), (.text "id", .text "C"), (.text "markers", .null)]]

/-- A march with a pickup. -/
def declaredMarch : List (Value × Value) :=
  [(.text "rhythm", .text "2/2"), (.text "auftakt", .bool true)]

/-- The repeat with two endings in a march with a pickup. -/
def marchWithEndings : Score where
  bars :=
    [Structure.markedBar "A" .repeatStart, Structure.firstEndingBar "B",
      Structure.variationBar "C" 2 Structure.some_two_ne_some_zero]
  rhythm := { numerator := 2, denominator := 2 }
  auftakt := true

/-- The march with endings is read from the list and from the notation. -/
theorem ofValue_marchWithEndings :
    ofValue 996 (fileWith declaredMarch "bars" (.list entriesWithEndings)) = .ok marchWithEndings ∧
      ofValue 996 (fileWith declaredMarch "notation"
        (.text (BarListing.writtenScore " " listingsWithEndings))) = .ok marchWithEndings := by
  have hlisted : List.Forall₂ BarListing.IsListedIn listingsWithEndings entriesWithEndings :=
    .cons ⟨_, rfl, rfl, rfl, .inl rfl, .inl rfl⟩
      (.cons ⟨_, rfl, rfl, rfl, .inl rfl, .inl rfl⟩
        (.cons ⟨_, rfl, rfl, rfl, .inr ⟨rfl, .inr rfl⟩, .inl rfl⟩ .nil))
  have hshort (number digits : Nat) (hlt : number < Nat.pow 10 3) (hle : 3 ≤ digits) :
      number < Nat.pow 10 digits :=
    Nat.lt_of_lt_of_le hlt (Nat.pow_le_pow_right (by decide) hle)
  have hwritable : ∀ listing ∈ listingsWithEndings, listing.IsWritable := by
    refine List.forall_mem_cons.mpr ⟨⟨by decide, nofun, nofun⟩, List.forall_mem_cons.mpr
      ⟨⟨by decide, ?_, ?_⟩, List.forall_mem_singleton.mpr ⟨by decide, nofun, ?_⟩⟩⟩ <;>
      · rintro _ ⟨⟩
        exact ⟨by decide, hshort _ _ (by decide) (by decide)⟩
  have hbars : ofValue 996 (fileWith declaredMarch "bars" (.list entriesWithEndings)) =
      .ok marchWithEndings := by
    refine (ofValue_fileWith_eq_ok_iff (by decide) (by decide)).mpr ⟨rfl, ?_, rfl⟩
    exact (readBars_eq_ok_iff hlisted).mpr
      (.cons ⟨rfl, rfl, rfl, rfl⟩ (.cons ⟨rfl, rfl, rfl, rfl⟩ (.cons ⟨rfl, rfl, rfl, rfl⟩ .nil)))
  have hblank : ∀ char ∈ " ".toList, Text.isBlank char = true := List.forall_mem_singleton.mpr rfl
  have hiff := ofValue_bars_iff_ofValue_notation declaredMarch listingsWithEndings
    entriesWithEndings " " marchWithEndings 996 rfl rfl hlisted hwritable (by decide) hblank
  exact ⟨hbars, hiff.1.mp hbars⟩

/-- The repeat with two endings in bar notation. -/
example : BarListing.writtenScore " " listingsWithEndings =
    "A@repeat_start [1 B=960@repeat_end] [2 C]" := by
  decide

end Score

end ScoreRepeats
