import ScoreRepeats.Notation.Draft
import ScoreRepeats.Proofs.FailingSteps
import ScoreRepeats.Proofs.WrittenNumbers

/-!
# Bar tokens

How a bar is written as a token (`Spelling`): its id, then names of markers, each after an `@`, and
behind any of these a length after an `=`. A token has one spelling (`Spelling.exists_isPlain`,
`Spelling.IsPlain.eq_of_token_eq`). It is read just if its spelling makes sense, and the draft then
has what is written (`Draft.ofToken_eq_ok_iff`). A draft becomes a bar just if it is the draft of
that bar (`Draft.toBar_eq_ok_iff`).
-/

set_option autoImplicit false
set_option relaxedAutoImplicit false

namespace ScoreRepeats

/-- A bar is built from its parts, and from no others. -/
theorem Bar.ofMarkers_eq_ok_iff {id : String} {ticks : Int} {markers : MarkerSet}
    {variation : Option Int} {bar : Bar} :
    Bar.ofMarkers id ticks markers variation = .ok bar ↔
      bar.id = id ∧ bar.ticks = ticks ∧ bar.markers = markers ∧
        bar.variation.map Int.ofNat = variation := by
  unfold Bar.ofMarkers
  constructor
  · intro h
    split at h
    next hticks =>
      have hvalue := Int.toNat_of_nonneg (Int.le_of_lt hticks)
      split at h
      next => cases h
      next =>
        cases variation with
        | none =>
          cases h
          exact ⟨rfl, hvalue, rfl, rfl⟩
        | some number =>
          dsimp only at h
          split at h
          next hnumber =>
            split at h
            next =>
              cases h
              exact ⟨rfl, hvalue, rfl, congrArg some (Int.toNat_of_nonneg (by omega))⟩
            next => cases h
          next => cases h
    next => cases h
  · rintro ⟨rfl, rfl, rfl, rfl⟩
    have hticks : (0 : Int) < bar.ticks := Int.natCast_pos.mpr bar.ticks_pos
    have hclash : bar.markers.clash? = none := Option.isNone_iff_eq_none.mp bar.compatible
    rw [dif_pos hticks]
    split
    next hsome =>
      rw [hclash] at hsome
      cases hsome
    next =>
      cases bar with
      | mk id ticks markers variation ticks_pos compatible variation_ne_zero not_barred =>
        cases variation with
        | none => rfl
        | some number =>
          have hnumber : (1 : Int) ≤ number := by
            have : number ≠ 0 := fun hzero ↦ variation_ne_zero (congrArg some hzero)
            omega
          simp [hnumber, not_barred]

namespace Notation

/-! ### Fields -/

/-- A whole number is written in a text of decimal digits. -/
def Denotes (digits : List Char) (number : Int) : Prop :=
  ∃ value : Nat, number = value ∧ Numeral.IsWritten digits value

variable {digits : List Char} {number : Int}

theorem Denotes.unique {other : Int} (h : Denotes digits number) (hother : Denotes digits other) :
    number = other := by
  obtain ⟨value, rfl, hwritten⟩ := h
  obtain ⟨again, rfl, hagain⟩ := hother
  rw [hwritten.unique hagain]

theorem Denotes.isDigits (h : Denotes digits number) : Text.isDigits digits = true := by
  obtain ⟨value, -, hwritten⟩ := h
  exact hwritten.isDigits

theorem Denotes.ne_nil (h : Denotes digits number) : digits ≠ [] := by
  obtain ⟨value, -, hwritten⟩ := h
  exact hwritten.nonempty

/-- A number is written in decimal digits if there are some, and not too many. -/
theorem exists_denotes_iff : (∃ number, Denotes digits number) ↔
    digits ≠ [] ∧ (∀ char ∈ digits, Text.isDecimal char = true) ∧
      digits.length ≤ Numeral.maxDigits := by
  constructor
  · rintro ⟨number, value, -, hwritten⟩
    exact ⟨hwritten.nonempty, hwritten.decimal, hwritten.short⟩
  · rintro ⟨hne, hdecimal, hshort⟩
    exact ⟨_, Numeral.valueOf digits, rfl, hne, hdecimal, hshort, rfl⟩

instance : Decidable (∃ number, Denotes digits number) :=
  decidable_of_iff (digits ≠ [] ∧ digits.all Text.isDecimal = true ∧
      digits.length ≤ Numeral.maxDigits) <| by
    rw [exists_denotes_iff, List.all_eq_true]

/-- A text of characters that denote digits gives the number that is written in it. -/
theorem readNumber_eq_ok_iff (h : Text.isDigits digits = true) :
    readNumber digits = .ok number ↔ Denotes digits number := by
  rw [Denotes, ← Numeral.read_eq_ok_iff h, readNumber, mapError_eq_ok_iff]

/-- A short or the full name of a marker. -/
def IsNameOf (name : String) (marker : Marker) : Prop :=
  (name, marker) ∈ aliases ∨ name = marker.name

/-- A marker is found by its names. -/
theorem markerNamed?_eq_some_iff {name : String} {marker : Marker} :
    markerNamed? name = some marker ↔ IsNameOf name marker := by
  rw [markerNamed?, Option.or_eq_some_iff, IsNameOf, Marker.ofName?_eq_some_iff]
  constructor
  · rintro (halias | ⟨-, hname⟩)
    · obtain ⟨before, after, hsplit, -⟩ := List.lookup_eq_some_iff.mp halias
      exact .inl (hsplit ▸ List.mem_append_right before List.mem_cons_self)
    · exact .inr hname
  · rw [← Marker.ofName?_eq_some_iff, ← Option.or_eq_some_iff, ← markerNamed?,
      Marker.ofName?_eq_some_iff]
    rintro (halias | rfl)
    · have hall : ∀ pair ∈ aliases, markerNamed? pair.1 = some pair.2 := by decide
      exact hall (name, marker) halias
    · cases marker <;> decide

instance {name : String} {marker : Marker} : Decidable (IsNameOf name marker) :=
  inferInstanceAs (Decidable (_ ∨ _))

theorem exists_isNameOf_iff {name : String} :
    (∃ marker, IsNameOf name marker) ↔ (markerNamed? name).isSome = true := by
  simp only [Option.isSome_iff_exists, markerNamed?_eq_some_iff]

instance {name : String} : Decidable (∃ marker, IsNameOf name marker) :=
  decidable_of_iff' _ exists_isNameOf_iff

/-- No name stands for two markers. -/
theorem IsNameOf.eq_iff {name : String} {marker other : Marker} (h : IsNameOf name marker) :
    other = marker ↔ IsNameOf name other := by
  rw [← markerNamed?_eq_some_iff] at h ⊢
  rw [h, Option.some_inj, eq_comm]

namespace Field

/-- The field as it is written. -/
def text (field : Field) : List Char :=
  field.name ++ match field.length with
    | none => []
    | some digits => '=' :: digits

/-- A field that is read as it is written. -/
structure IsPlain (field : Field) : Prop where
  unseparated : '@' ∉ field.text
  unmeasured : '=' ∉ field.name

variable {field : Field}

instance : Decidable field.IsPlain :=
  decidable_of_iff ('@' ∉ field.text ∧ '=' ∉ field.name)
    ⟨fun h ↦ ⟨h.1, h.2⟩, fun h ↦ ⟨h.1, h.2⟩⟩

theorem text_ofText (text : List Char) : (ofText text).text = text := by
  have hsplit := List.takeWhile_append_dropWhile (p := (· != '=')) (l := text)
  rw [Field.text, ofText]
  cases hdrop : text.dropWhile (· != '=') with
  | nil => simpa [hdrop] using hsplit
  | cons first rest =>
    have hfirst : first = '=' := by
      have hnot := List.head_dropWhile_not (p := (· != '=')) (l := text) (by simp [hdrop])
      simpa [hdrop] using hnot
    simpa [hdrop, hfirst] using hsplit

theorem isPlain_ofText {text : List Char} (h : '@' ∉ text) : (ofText text).IsPlain where
  unseparated := by rwa [text_ofText]
  unmeasured := by
    intro hmem
    simpa using List.mem_takeWhile_imp hmem

theorem ofText_text (h : '=' ∉ field.name) : ofText field.text = field := by
  have hname : ∀ char ∈ field.name, (char != '=') = true := by
    intro char hchar
    rw [bne_iff_ne]
    rintro rfl
    exact h hchar
  obtain ⟨name, length⟩ := field
  cases length with
  | none =>
    simp only [ofText, text, List.append_nil, List.takeWhile_eq_self_iff.mpr hname,
      List.dropWhile_eq_nil_iff.mpr hname]
  | some digits =>
    simp [ofText, text, List.takeWhile_append_of_pos hname, List.dropWhile_append_of_pos hname]

/-- The number of ticks that a field gives, if it gives any. -/
inductive Gives (field : Field) : Option Int → Prop
  | nothing (unmeasured : field.length = none) : Gives field none
  | number {digits : List Char} {number : Int} (measured : field.length = some digits)
      (denotes : Denotes digits number) : Gives field (some number)

/-- The length of a field is read just if it writes a number. -/
theorem ticks_eq_ok_iff {token : Token} {result : Option Int} :
    field.ticks token = .ok result ↔ field.Gives result := by
  unfold Field.ticks
  constructor
  · intro h
    cases hlength : field.length with
    | none =>
      rw [hlength] at h
      cases h
      exact .nothing hlength
    | some digits =>
      rw [hlength] at h
      dsimp only at h
      split_ifs at h with hdigits
      obtain ⟨number, hread, rfl⟩ := map_eq_ok_iff.mp h
      exact .number hlength ((readNumber_eq_ok_iff hdigits).mp hread)
  · rintro (hlength | ⟨hlength, hdenotes⟩)
    · rw [hlength]
    · rw [hlength]
      dsimp only
      rw [if_pos hdenotes.isDigits, (readNumber_eq_ok_iff hdenotes.isDigits).mpr hdenotes]
      rfl

/-- The marker that a field names. -/
theorem marker_eq_ok_iff {token : Token} {marker : Marker} :
    field.marker token = .ok marker ↔ IsNameOf (String.ofList field.name) marker := by
  rw [← markerNamed?_eq_some_iff, Field.marker]
  cases markerNamed? (String.ofList field.name) <;> simp

end Field

/-! ### Spellings -/

/-- How a bar is written: a field that begins with its id, and fields that begin with the names of
its markers. -/
structure Spelling where
  idField : Field
  markerFields : List Field
  deriving DecidableEq, Repr

namespace Spelling

def fields (spelling : Spelling) : List Field := spelling.idField :: spelling.markerFields

/-- The token that is spelled. -/
def token (spelling : Spelling) : Token := ['@'].intercalate (spelling.fields.map Field.text)

/-- The text of the last length. -/
def lastLength? (spelling : Spelling) : Option (List Char) :=
  (spelling.fields.filterMap Field.length).getLast?

/-- A spelling in which no separator stands in the wrong place. -/
def IsPlain (spelling : Spelling) : Prop := ∀ field ∈ spelling.fields, field.IsPlain

instance (spelling : Spelling) : Decidable spelling.IsPlain :=
  inferInstanceAs (Decidable (∀ field ∈ spelling.fields, field.IsPlain))

/-- A spelling that makes sense: there is an id, all markers are known, and all lengths are
numbers. -/
structure IsReadable (spelling : Spelling) : Prop where
  plain : spelling.IsPlain
  named : spelling.idField.name ≠ []
  known : ∀ field ∈ spelling.markerFields, ∃ marker, IsNameOf (String.ofList field.name) marker
  measured : ∀ field ∈ spelling.fields, ∀ digits ∈ field.length, ∃ number, Denotes digits number

instance (spelling : Spelling) : Decidable spelling.IsReadable :=
  decidable_of_iff (spelling.IsPlain ∧ spelling.idField.name ≠ [] ∧
      (∀ field ∈ spelling.markerFields, ∃ marker, IsNameOf (String.ofList field.name) marker) ∧
      ∀ field ∈ spelling.fields, ∀ digits ∈ field.length, ∃ number, Denotes digits number)
    ⟨fun h ↦ ⟨h.1, h.2.1, h.2.2.1, h.2.2.2⟩, fun h ↦ ⟨h.plain, h.named, h.known, h.measured⟩⟩

variable {spelling : Spelling}

/-- The fields of a token are those that it is spelled with. -/
theorem fields_token (h : spelling.IsPlain) :
    (Text.splitAt '@' spelling.token).map Field.ofText = spelling.fields := by
  have hseparated : ∀ text ∈ spelling.fields.map Field.text, '@' ∉ text := by
    rw [List.forall_mem_map]
    exact fun field hfield ↦ (h field hfield).unseparated
  rw [token, Text.splitAt_eq_splitOn,
    List.splitOn_intercalate '@' hseparated (List.cons_ne_nil _ _), List.map_map]
  calc spelling.fields.map (Field.ofText ∘ Field.text)
      = spelling.fields.map id :=
        List.map_congr_left fun field hfield ↦ Field.ofText_text (h field hfield).unmeasured
    _ = spelling.fields := List.map_id _

/-- A token has one plain spelling. -/
theorem IsPlain.eq_of_token_eq {other : Spelling} (h : spelling.IsPlain) (hother : other.IsPlain)
    (htoken : spelling.token = other.token) : spelling = other := by
  have hfields : spelling.fields = other.fields := by
    rw [← fields_token h, ← fields_token hother, htoken]
  obtain ⟨hid, hmarkers⟩ := List.cons.inj hfields
  cases spelling
  cases other
  rw [Spelling.mk.injEq]
  exact ⟨hid, hmarkers⟩

/-- Every token is spelled in a plain way. -/
theorem exists_isPlain (token : Token) : ∃ spelling : Spelling, spelling.IsPlain ∧
    spelling.token = token := by
  obtain ⟨first, rest, hpieces⟩ := List.exists_cons_of_ne_nil (Text.splitAt_ne_nil '@' token)
  have hfields : (⟨Field.ofText first, rest.map Field.ofText⟩ : Spelling).fields =
      (Text.splitAt '@' token).map Field.ofText := by rw [hpieces]; rfl
  refine ⟨⟨Field.ofText first, rest.map Field.ofText⟩, ?_, ?_⟩
  · rw [IsPlain, hfields, List.forall_mem_map]
    exact fun piece hpiece ↦ Field.isPlain_ofText (Text.not_mem_of_mem_splitAt hpiece)
  · have htexts : (Field.text ∘ Field.ofText) = id := funext Field.text_ofText
    rw [Spelling.token, hfields, List.map_map, htexts, List.map_id, Text.splitAt_eq_splitOn,
      List.intercalate_splitOn]

/-- The length that a spelling gives: the last one in it, or else the default. -/
def GivesTicks (spelling : Spelling) (defaultTicks ticks : Int) : Prop :=
  match spelling.lastLength? with
  | none => ticks = defaultTicks
  | some digits => Denotes digits ticks

theorem GivesTicks.unique {defaultTicks ticks other : Int}
    (h : spelling.GivesTicks defaultTicks ticks) (hother : spelling.GivesTicks defaultTicks other) :
    ticks = other := by
  unfold GivesTicks at h hother
  cases hlast : spelling.lastLength? with
  | none =>
    rw [hlast] at h hother
    exact h.trans hother.symm
  | some digits =>
    rw [hlast] at h hother
    exact Denotes.unique h hother

end Spelling

/-- Of the lengths that fields give, the last one is what the last field with a length gives. -/
theorem getLast?_of_gives {fields : List Field} {lengths : List (Option Int)}
    (h : List.Forall₂ Field.Gives fields lengths) :
    Option.Rel Denotes (fields.filterMap Field.length).getLast?
      (lengths.filterMap fun length ↦ length).getLast? := by
  induction h with
  | nil => exact .none
  | @cons field length fields lengths hfield _ ih =>
    cases hfield with
    | nothing unmeasured =>
      rw [List.filterMap_cons_none unmeasured]
      exact ih
    | @number digits number measured denotes =>
      rw [List.filterMap_cons_some measured, List.getLast?_cons, List.filterMap_cons,
        List.getLast?_cons]
      refine .some ?_
      generalize (fields.filterMap Field.length).getLast? = last at ih
      generalize (lengths.filterMap fun length ↦ length).getLast? = lastTicks at ih
      cases ih with
      | none => exact denotes
      | some hlast => exact hlast

/-! ### Drafts -/

namespace Draft

variable {spelling : Spelling} {defaultTicks : Int} {variation : Option Int} {draft : Draft}

/-- A draft that has what a spelling gives, and besides the start or the end of a repeat where one
is marked around it. -/
structure IsReadFrom (draft : Draft) (spelling : Spelling) (defaultTicks : Int)
    (starts ends : Prop) : Prop where
  id : draft.id = String.ofList spelling.idField.name
  ticks : spelling.GivesTicks defaultTicks draft.ticks
  markers : ∀ marker, draft.markers.has marker = true ↔
    (∃ field ∈ spelling.markerFields, IsNameOf (String.ofList field.name) marker) ∨
      (marker = .repeatStart ∧ starts) ∨ (marker = .repeatEnd ∧ ends)

/-- The reading of a token in terms of its spelling. -/
theorem ofToken_token (h : spelling.IsPlain) :
    ofToken spelling.token defaultTicks variation =
      match spelling.fields.mapM fun field ↦ field.ticks spelling.token with
      | .error error => .error error
      | .ok lengths =>
        if spelling.idField.name.isEmpty then .error (.noId spelling.token)
        else
          (spelling.markerFields.mapM fun field : Field ↦ field.marker spelling.token).map
            fun markers ↦
              { id := String.ofList spelling.idField.name
                ticks := (lengths.filterMap fun length ↦ length).getLast?.getD defaultTicks
                markers := MarkerSet.ofList markers
                variation } := by
  rw [ofToken, Spelling.fields_token h]
  rfl

/-- The lengths of fields can be read just if all of them are numbers. -/
theorem exists_mapM_ticks_iff {fields : List Field} {token : Token} :
    (∃ lengths, fields.mapM (fun field ↦ field.ticks token) = .ok lengths) ↔
      ∀ field ∈ fields, ∀ digits ∈ field.length, ∃ number, Denotes digits number := by
  rw [exists_mapM_eq_ok_iff]
  refine forall₂_congr fun field _ ↦ ?_
  simp only [Field.ticks_eq_ok_iff]
  constructor
  · rintro ⟨result, hnothing | ⟨hmeasured, hdenotes⟩⟩ digits hdigits
    · rw [hnothing] at hdigits
      cases hdigits
    · rw [hmeasured] at hdigits
      cases hdigits
      exact ⟨_, hdenotes⟩
  · intro h
    cases hlength : field.length with
    | none => exact ⟨none, .nothing hlength⟩
    | some digits =>
      obtain ⟨number, hdenotes⟩ := h digits hlength
      exact ⟨some number, .number hlength hdenotes⟩

/-- Markers that are read have the names that are written. -/
theorem mem_of_mapM_marker {fields : List Field} {token : Token} {markers : List Marker}
    (h : fields.mapM (fun field ↦ field.marker token) = .ok markers) (marker : Marker) :
    marker ∈ markers ↔ ∃ field ∈ fields, IsNameOf (String.ofList field.name) marker := by
  simp only [mapM_eq_ok_iff, Field.marker_eq_ok_iff] at h
  induction h with
  | nil => simp
  | cons hfield _ ih =>
    rw [List.mem_cons, ih, List.exists_mem_cons_iff, hfield.eq_iff]

/-- What is read from a spelling is one draft. -/
theorem IsReadFrom.unique {other : Draft} {starts ends : Prop}
    (h : draft.IsReadFrom spelling defaultTicks starts ends)
    (hother : other.IsReadFrom spelling defaultTicks starts ends)
    (hvariation : draft.variation = other.variation) : draft = other := by
  have hmarkers : draft.markers = other.markers :=
    MarkerSet.ext fun marker ↦
      Bool.eq_iff_iff.mpr ((h.markers marker).trans (hother.markers marker).symm)
  have hid := h.id.trans hother.id.symm
  have hticks := h.ticks.unique hother.ticks
  cases draft
  cases other
  rw [Draft.mk.injEq]
  exact ⟨hid, hticks, hmarkers, hvariation⟩

theorem IsReadFrom.congr {starts ends starts' ends' : Prop}
    (h : draft.IsReadFrom spelling defaultTicks starts ends) (hstarts : starts ↔ starts')
    (hends : ends ↔ ends') : draft.IsReadFrom spelling defaultTicks starts' ends' :=
  ⟨h.id, h.ticks, fun marker ↦ by rw [h.markers, hstarts, hends]⟩

/-- A draft with the end of a repeat marked on it. -/
theorem IsReadFrom.mark_repeatEnd {starts ends : Prop}
    (h : draft.IsReadFrom spelling defaultTicks starts ends) :
    (draft.mark .repeatEnd).IsReadFrom spelling defaultTicks starts True where
  id := h.id
  ticks := h.ticks
  markers marker := by
    rw [mark, MarkerSet.has_insert, Bool.or_eq_true, decide_eq_true_eq, h.markers]
    by_cases hend : marker = .repeatEnd <;> simp [hend]

/-- A draft with the start of a repeat marked on it, if one was waiting. -/
theorem IsReadFrom.mark_repeatStart {ends : Prop}
    (h : draft.IsReadFrom spelling defaultTicks False ends) (waiting : Bool) :
    (if waiting then draft.mark .repeatStart else draft).IsReadFrom spelling defaultTicks
      (waiting = true) ends := by
  cases waiting with
  | false => simpa using h
  | true =>
    refine ⟨h.id, h.ticks, fun marker ↦ ?_⟩
    rw [if_pos rfl, mark, MarkerSet.has_insert, Bool.or_eq_true, decide_eq_true_eq, h.markers]
    by_cases hstart : marker = .repeatStart <;> simp [hstart]

/-- What is put together from the fields of a spelling is read from it. -/
theorem isReadFrom_of_mapM {lengths : List (Option Int)} {markers : List Marker}
    (hlengths : spelling.fields.mapM (fun field ↦ field.ticks spelling.token) = .ok lengths)
    (hmarkers :
      spelling.markerFields.mapM (fun field ↦ field.marker spelling.token) = .ok markers) :
    (⟨String.ofList spelling.idField.name,
        (lengths.filterMap fun length ↦ length).getLast?.getD defaultTicks,
        MarkerSet.ofList markers, variation⟩ : Draft).IsReadFrom spelling defaultTicks False
      False where
  id := rfl
  ticks := by
    simp only [mapM_eq_ok_iff, Field.ticks_eq_ok_iff] at hlengths
    have hlast := getLast?_of_gives hlengths
    rw [Spelling.GivesTicks, Spelling.lastLength?]
    generalize (spelling.fields.filterMap Field.length).getLast? = last at hlast
    generalize (lengths.filterMap fun length ↦ length).getLast? = lastTicks at hlast
    cases hlast with
    | none => rfl
    | some hdenotes => exact hdenotes
  markers marker := by
    rw [MarkerSet.has_ofList, List.contains_iff_mem, mem_of_mapM_marker hmarkers]
    simp

/-- Where a spelling makes sense, its token is read. -/
theorem exists_ofToken_eq_ok (h : spelling.IsReadable) (defaultTicks : Int)
    (variation : Option Int) : ∃ draft : Draft,
      ofToken spelling.token defaultTicks variation = .ok draft ∧
        draft.IsReadFrom spelling defaultTicks False False ∧ draft.variation = variation := by
  have hnamed : ¬ spelling.idField.name.isEmpty = true := by simpa using h.named
  obtain ⟨lengths, hlengths⟩ : ∃ lengths,
      spelling.fields.mapM (fun field ↦ field.ticks spelling.token) = .ok lengths :=
    exists_mapM_ticks_iff.mpr h.measured
  obtain ⟨markers, hmarkers⟩ : ∃ markers,
      spelling.markerFields.mapM (fun field ↦ field.marker spelling.token) = .ok markers := by
    rw [exists_mapM_eq_ok_iff]
    simpa only [Field.marker_eq_ok_iff] using h.known
  refine ⟨_, ?_, isReadFrom_of_mapM hlengths hmarkers, rfl⟩
  rw [ofToken_token h.plain, hlengths]
  dsimp only
  rw [if_neg hnamed, hmarkers]
  rfl

/-- A token is read just if its spelling makes sense, and then as it is spelled. -/
theorem ofToken_eq_ok_iff {token : Token} :
    ofToken token defaultTicks variation = .ok draft ↔ ∃ spelling : Spelling,
      spelling.token = token ∧ spelling.IsReadable ∧
        draft.IsReadFrom spelling defaultTicks False False ∧ draft.variation = variation := by
  constructor
  · intro h
    obtain ⟨spelling, hplain, rfl⟩ := Spelling.exists_isPlain token
    rw [ofToken_token hplain] at h
    cases hlengths : spelling.fields.mapM fun field ↦ field.ticks spelling.token with
    | error error =>
      rw [hlengths] at h
      cases h
    | ok lengths =>
      rw [hlengths] at h
      dsimp only at h
      split_ifs at h with hnamed
      obtain ⟨markers, hmarkers, rfl⟩ := map_eq_ok_iff.mp h
      refine ⟨spelling, rfl, ?_, isReadFrom_of_mapM hlengths hmarkers, rfl⟩
      have hknown := exists_mapM_eq_ok_iff.mp ⟨markers, hmarkers⟩
      simp only [Field.marker_eq_ok_iff] at hknown
      exact ⟨hplain, by simpa using hnamed, hknown, exists_mapM_ticks_iff.mp ⟨lengths, hlengths⟩⟩
  · rintro ⟨spelling, rfl, hreadable, hfrom, rfl⟩
    obtain ⟨other, hread, hother, hvariation⟩ :=
      exists_ofToken_eq_ok hreadable defaultTicks draft.variation
    rw [hread, hother.unique hfrom hvariation]

/-- The draft of a bar. -/
def ofBar (bar : Bar) : Draft :=
  ⟨bar.id, bar.ticks, bar.markers, bar.variation.map Int.ofNat⟩

/-- A draft becomes a bar just if it is the draft of that bar. -/
theorem toBar_eq_ok_iff {bar : Bar} : draft.toBar = .ok bar ↔ draft = ofBar bar := by
  rw [toBar, mapError_eq_ok_iff, Bar.ofMarkers_eq_ok_iff, ofBar]
  cases draft
  rw [Draft.mk.injEq]
  simp only [eq_comm]

end Draft

end Notation

end ScoreRepeats
