import Mathlib.Data.Set.List
import ScoreRepeats.ScoreFile
import ScoreRepeats.Proofs.BarTokens
import ScoreRepeats.Proofs.PlainBars

/-!
# The types of the fields of a score file

A score file that lists its bars may hold any values where a list, a number or texts are wanted.
Each reader of a field gives a result just for the values of its type (`BarEntry.ticks_eq_ok_iff`,
`BarEntry.markers_eq_ok_iff`, `BarEntry.variation_eq_ok_iff`), and an entry is read as a bar just if
its fields describe the bar (`BarEntry.Describes`, `BarEntry.read_eq_ok_iff`).

The readers differ in what they take for a missing value. A length must be a number if it is there
at all, and a variation may be null as well. Where a list is wanted, whatever counts as false stands
for no items (`Value.Lists`): null, but also `false`, zero and the empty text. Such a value is not
refused, although it is no list.

What is refused is quoted. A value nested deeper than there is room for (`Value.IsTooDeep`) cannot
be, and only such values fail for something else than the error of a value
(`BarEntry.isValueError_of_read`).
-/

set_option autoImplicit false
set_option relaxedAutoImplicit false

namespace ScoreRepeats

/-! ### Values in the place of a list -/

namespace Value

variable {value : Value} {items : List Value}

/-- A value stands for these items where a list is wanted: it is the list of them, or it counts as
false and there are none. -/
def Lists (value : Value) (items : List Value) : Prop :=
  value.items? = some items ∨ value.isTrue = false ∧ items = []

/-- A list counts as true just if it has items, also one that holds itself. -/
theorem isTrue_of_items? (h : value.items? = some items) : value.isTrue = !items.isEmpty := by
  cases value with
  | list held =>
    cases h
    rfl
  | named name held =>
    cases held with
    | list inner =>
      cases h
      cases inner <;> rfl
    | again other =>
      by_cases hsame : other = name <;> simp [items?, unfold, replace, hsame] at h
    | _ => cases h
  | _ => cases h

/-- A value that counts as false stands for no items, and for no other ones. -/
theorem lists_iff_of_isTrue_eq_false (hfalse : value.isTrue = false) :
    value.Lists items ↔ items = [] := by
  refine ⟨?_, fun hnil ↦ .inr ⟨hfalse, hnil⟩⟩
  rintro (hitems | ⟨-, hnil⟩)
  · simpa [isTrue_of_items? hitems] using hfalse
  · exact hnil

/-- A value is read as a text just if it can be put in words. -/
theorem read_eq_ok_iff {room : Nat} {text : String} :
    value.read room = .ok text ↔ value.plain room = .ok text :=
  mapError_eq_ok_iff

/-- A value is nested deeper than there is room for. -/
def IsTooDeep (room : Nat) (value : Value) : Prop := value.shown room = .error .tooDeep

/-- A value that cannot be quoted is nested too deep, or fails for an error of its own. -/
theorem isValueError_of_quote {room : Nat} {error : ScoreError}
    (h : value.quote room = .error error) :
    error.isValueError = true ∨ error = .unshown .tooDeep ∧ value.IsTooDeep room := by
  obtain ⟨obstacle, hshown, rfl⟩ := mapError_eq_error_iff.mp h
  cases obstacle with
  | longNumber => exact .inl rfl
  | tooDeep => exact .inr ⟨rfl, hshown⟩

/-- A value that cannot be read as a text is nested too deep, or fails for an error of its own. -/
theorem isValueError_of_read {room : Nat} {error : ScoreError}
    (h : value.read room = .error error) :
    error.isValueError = true ∨ error = .unshown .tooDeep ∧ value.IsTooDeep room := by
  have hquote : value.quote room = .error error := by
    cases value with
    | text | date | moment => cases h
    | _ => exact h
  exact isValueError_of_quote hquote

end Value

/-! ### Bars from their parts -/

namespace Bar

/-- No name is unknown just if each is the name of a marker. -/
theorem unknownNames_eq_nil_iff {names : List String} :
    unknownNames names = [] ↔ ∃ markers : List Marker, names = markers.map Marker.name := by
  have hrange : (∃ markers : List Marker, names = markers.map Marker.name) ↔
      ∀ name ∈ names, ∃ marker : Marker, marker.name = name := by
    simpa [eq_comm] using Set.ext_iff.mp (Set.range_list_map Marker.name) names
  have hknown (name : String) :
      (Marker.ofName? name).isNone = false ↔ ∃ marker : Marker, marker.name = name := by
    rw [Option.isNone_eq_false_iff, Option.isSome_iff_exists]
    simp only [Marker.ofName?_eq_some_iff, @eq_comm _ name]
  rw [hrange, unknownNames, List.eq_nil_iff_forall_not_mem]
  simp only [List.mem_eraseDups, List.mem_mergeSort, List.mem_filter, not_and, Bool.not_eq_true,
    hknown]

/-- A bar is made from its parts, with markers given by their names, and from no others. -/
theorem make_eq_ok_iff {id : String} {ticks : Int} {names : List String} {variation : Option Int}
    {bar : Bar} :
    make id ticks names variation = .ok bar ↔
      bar.id = id ∧ bar.ticks = ticks ∧
        (∃ markers : List Marker, names = markers.map Marker.name ∧ bar.markers = .ofList markers) ∧
        bar.variation.map Int.ofNat = variation := by
  unfold make
  constructor
  · intro h
    split at h
    · cases h
    · split at h
      next hnone =>
        obtain ⟨markers, rfl⟩ := unknownNames_eq_nil_iff.mp hnone
        obtain ⟨hid, hticks, hmarkers, hvariation⟩ := ofMarkers_eq_ok_iff.mp h
        refine ⟨hid, hticks, ⟨markers, rfl, ?_⟩, hvariation⟩
        rw [hmarkers, List.filterMap_map]
        simp
      next => cases h
  · rintro ⟨hid, rfl, ⟨markers, rfl, hmarkers⟩, hvariation⟩
    have hticks : ¬ (bar.ticks : Int) ≤ 0 := Int.not_le.mpr (Int.natCast_pos.mpr bar.ticks_pos)
    have hnames : (markers.map Marker.name).filterMap Marker.ofName? = markers := by
      simp [List.filterMap_map]
    rw [if_neg hticks, unknownNames_eq_nil_iff.mpr ⟨markers, rfl⟩]
    dsimp only
    rw [hnames]
    exact ofMarkers_eq_ok_iff.mpr ⟨hid, rfl, hmarkers, hvariation⟩

end Bar

/-! ### The fields of an entry -/

namespace BarEntry

variable {room fullBar : Nat} {id entry : Value} {fields : List (Value × Value)} {bar : Bar}

/-- The length is read just if it is a whole number, or missing. -/
theorem ticks_eq_ok_iff {number : Int} :
    ticks room fullBar id fields = .ok number ↔
      Value.entry? "ticks" fields = some (.int number) ∨
        Value.entry? "ticks" fields = none ∧ number = fullBar := by
  unfold ticks
  cases hfield : Value.entry? "ticks" fields with
  | none => simp [eq_comm]
  | some value => cases value <;> simp [bind_eq_ok_iff]

/-- Texts are found in values just if these are all texts. -/
theorem mapM_textOf?_eq_some_iff {items : List Value} {names : List String} :
    items.mapM textOf? = some names ↔ items = names.map .text := by
  induction items generalizing names with
  | nil => cases names <;> simp
  | cons item rest ih =>
    rw [List.mapM_cons]
    cases item with
    | text chars => cases names <;> simp [textOf?, Option.bind_eq_some_iff, ih, and_comm]
    | _ => cases names <;> simp [textOf?]

/-- The names of the markers are read just if the value stands for a list of texts, or is missing.
-/
theorem markers_eq_ok_iff {names : List String} :
    markers room id fields = .ok names ↔
      (∃ value, Value.entry? "markers" fields = some value ∧ value.Lists (names.map .text)) ∨
        Value.entry? "markers" fields = none ∧ names = [] := by
  unfold markers
  cases hfield : Value.entry? "markers" fields with
  | none => simp [eq_comm]
  | some value =>
    simp only [Option.some.injEq, exists_eq_left', reduceCtorEq, false_and, or_false]
    by_cases htrue : value.isTrue = true
    · have hgiven : (value.items?.bind fun items ↦ items.mapM textOf?) = some names ↔
          value.Lists (names.map .text) := by
        simp only [Option.bind_eq_some_iff, mapM_textOf?_eq_some_iff, exists_eq_right, Value.Lists,
          htrue, Bool.true_eq_false, false_and, or_false]
      rw [if_pos htrue, ← hgiven]
      cases value.items?.bind fun items ↦ items.mapM textOf? <;> simp [bind_eq_ok_iff]
    · rw [Bool.not_eq_true] at htrue
      rw [if_neg (by simp [htrue]), Value.lists_iff_of_isTrue_eq_false htrue, List.map_eq_nil_iff,
        Except.ok.injEq, eq_comm]

/-- The number of the variation is read just if it is a whole number, null or missing. -/
theorem variation_eq_ok_iff {number : Option Int} :
    variation room id fields = .ok number ↔
      Value.entry? "variation" fields = number.map .int ∨
        Value.entry? "variation" fields = some .null ∧ number = none := by
  unfold variation
  cases hfield : Value.entry? "variation" fields with
  | none => cases number <;> simp
  | some value => cases value <;> cases number <;> simp [bind_eq_ok_iff]

/-- The fields of an entry describe a bar. They give its id, which can be put in words, its length
as a whole number unless it is a full bar, the names of its markers as a list of texts unless there
are none, and the number of its variation unless there is none. -/
structure Describes (room fullBar : Nat) (fields : List (Value × Value)) (bar : Bar) : Prop where
  id : ∃ id, Value.entry? "id" fields = some id ∧ id.plain room = .ok bar.id
  ticks : Value.entry? "ticks" fields = some (.int bar.ticks) ∨
    Value.entry? "ticks" fields = none ∧ bar.ticks = fullBar
  markers : ∃ markers : List Marker, bar.markers = .ofList markers ∧
    ((∃ value, Value.entry? "markers" fields = some value ∧
        value.Lists ((markers.map Marker.name).map .text)) ∨
      Value.entry? "markers" fields = none ∧ markers = [])
  variation : Value.entry? "variation" fields = (bar.variation.map Int.ofNat).map .int ∨
    Value.entry? "variation" fields = some .null ∧ bar.variation = none

/-- An entry is that of a bar: a mapping whose fields describe the bar. -/
def IsEntryOf (room fullBar : Nat) (entry : Value) (bar : Bar) : Prop :=
  ∃ fields, entry.entries? = some fields ∧ Describes room fullBar fields bar

/-- An entry is read as a bar just if it is that of the bar. -/
theorem read_eq_ok_iff : read room fullBar entry = .ok bar ↔ IsEntryOf room fullBar entry bar := by
  unfold read IsEntryOf
  cases entry.entries? with
  | none => simp [bind_eq_ok_iff]
  | some fields =>
    simp only [Option.some.injEq, exists_eq_left']
    cases hid : Value.entry? "id" fields with
    | none =>
      refine iff_of_false (by simp [bind_eq_ok_iff]) fun hdescribes ↦ ?_
      obtain ⟨_, hsome, -⟩ := hdescribes.id
      rw [hid] at hsome
      cases hsome
    | some id =>
      simp only [bind_eq_ok_iff, mapError_eq_ok_iff, ticks_eq_ok_iff, markers_eq_ok_iff,
        variation_eq_ok_iff, Value.read_eq_ok_iff, Bar.make_eq_ok_iff]
      constructor
      · rintro ⟨_, hticks, _, hmarkers, _, hvariation, _, hplain, rfl, rfl, ⟨markers, rfl, hset⟩,
          rfl⟩
        refine ⟨⟨id, hid, hplain⟩, ?_, ⟨markers, hset, ?_⟩, ?_⟩
        · simpa only [Int.natCast_inj] using hticks
        · simpa only [List.map_eq_nil_iff] using hmarkers
        · simpa only [Option.map_eq_none_iff] using hvariation
      · rintro ⟨⟨_, hsome, hplain⟩, hticks, ⟨markers, hset, hmarkers⟩, hvariation⟩
        rw [hid, Option.some.injEq] at hsome
        subst hsome
        refine ⟨bar.ticks, ?_, markers.map Marker.name, ?_, bar.variation.map Int.ofNat, ?_,
          bar.id, hplain, rfl, rfl, ⟨markers, rfl, hset⟩, rfl⟩
        · simpa only [Int.natCast_inj] using hticks
        · simpa only [List.map_eq_nil_iff] using hmarkers
        · simpa only [Option.map_eq_none_iff] using hvariation

/-- A field has a wrong type: there is no id, the length is there and no whole number, the markers
count as true and are no list of texts, or the variation is neither null nor a whole number. -/
inductive HasWrongType (fields : List (Value × Value)) : Prop
  | id (hid : Value.entry? "id" fields = none)
  | ticks {value : Value} (hvalue : Value.entry? "ticks" fields = some value)
    (htype : ∀ number, value ≠ .int number)
  | markers {value : Value} (hvalue : Value.entry? "markers" fields = some value)
    (htrue : value.isTrue = true)
    (htype : ∀ names : List String, value.items? ≠ some (names.map .text))
  | variation {value : Value} (hvalue : Value.entry? "variation" fields = some value)
    (hnull : value ≠ .null) (htype : ∀ number, value ≠ .int number)

/-- An entry is no mapping, or a field of it has a wrong type. -/
def IsWronglyTyped (entry : Value) : Prop :=
  ∀ fields, entry.entries? = some fields → HasWrongType fields

/-- Fields of which one has a wrong type describe no bar. -/
theorem HasWrongType.not_describes (h : HasWrongType fields) :
    ¬ Describes room fullBar fields bar := by
  intro hdescribes
  cases h with
  | id hid =>
    obtain ⟨_, hsome, -⟩ := hdescribes.id
    rw [hid] at hsome
    cases hsome
  | ticks hvalue htype =>
    rcases hdescribes.ticks with hnumber | ⟨hnone, -⟩
    · rw [hvalue, Option.some.injEq] at hnumber
      exact htype _ hnumber
    · rw [hvalue] at hnone
      cases hnone
  | markers hvalue htrue htype =>
    obtain ⟨markers, -, ⟨value, hsome, hlists⟩ | ⟨hnone, -⟩⟩ := hdescribes.markers
    · rw [hvalue, Option.some.injEq] at hsome
      subst hsome
      rcases hlists with hitems | ⟨hfalse, -⟩
      · exact htype _ hitems
      · rw [htrue] at hfalse
        cases hfalse
    · rw [hvalue] at hnone
      cases hnone
  | variation hvalue hnull htype =>
    rcases hdescribes.variation with hnumber | ⟨hsome, -⟩
    · rw [hvalue] at hnumber
      obtain ⟨number, -, hint⟩ := Option.map_eq_some_iff.mp hnumber.symm
      exact htype number hint.symm
    · rw [hvalue, Option.some.injEq] at hsome
      exact hnull hsome

/-- A wrongly typed entry is not read. -/
theorem IsWronglyTyped.read_ne_ok (h : IsWronglyTyped entry) :
    read room fullBar entry ≠ .ok bar := by
  rw [Ne, read_eq_ok_iff]
  rintro ⟨fields, hfields, hdescribes⟩
  exact (h fields hfields).not_describes hdescribes

/-- An entry or the value of one of its fields is nested deeper than there is room for. -/
def IsTooDeep (room : Nat) (entry : Value) : Prop :=
  entry.IsTooDeep room ∨ ∃ fields name value, entry.entries? = some fields ∧
    Value.entry? name fields = some value ∧ value.IsTooDeep room

/-- The id of an entry or the value of one of its fields is nested deeper than there is room for. -/
def HasTooDeep (room : Nat) (id : Value) (fields : List (Value × Value)) : Prop :=
  id.IsTooDeep room ∨ ∃ name value, Value.entry? name fields = some value ∧ value.IsTooDeep room

/-- A value that is nested too deep in the fields of an entry is so in the entry. -/
theorem HasTooDeep.isTooDeep (h : HasTooDeep room id fields) (hfields : entry.entries? = some fields)
    (hid : Value.entry? "id" fields = some id) : IsTooDeep room entry := by
  rcases h with hdeep | ⟨name, value, hvalue, hdeep⟩
  · exact .inr ⟨fields, "id", id, hfields, hid, hdeep⟩
  · exact .inr ⟨fields, name, value, hfields, hvalue, hdeep⟩

/-- Where an error quotes the id and a field, it is the error of a value, unless one of the two is
nested too deep. -/
theorem isValueError_of_quotes {name : String} {value : Value}
    {complaint : String → String → ScoreError} {error : ScoreError} {α : Type}
    (hvalue : Value.entry? name fields = some value)
    (hcomplaint : ∀ id value, (complaint id value).isValueError = true)
    (h : (do .error (complaint (← id.quote room) (← value.quote room)) : Except ScoreError α) =
      .error error) :
    error.isValueError = true ∨ error = .unshown .tooDeep ∧ HasTooDeep room id fields := by
  rw [bind_eq_error_iff] at h
  rcases h with hquote | ⟨_, -, h⟩
  · exact (Value.isValueError_of_quote hquote).imp_right (And.imp_right .inl)
  · rw [bind_eq_error_iff] at h
    rcases h with hquote | ⟨_, -, ⟨⟩⟩
    · exact (Value.isValueError_of_quote hquote).imp_right
        (And.imp_right fun hdeep ↦ .inr ⟨name, value, hvalue, hdeep⟩)
    · exact .inl (hcomplaint _ _)

theorem isValueError_of_ticks {error : ScoreError} (h : ticks room fullBar id fields = .error error) :
    error.isValueError = true ∨ error = .unshown .tooDeep ∧ HasTooDeep room id fields := by
  unfold ticks at h
  split at h
  next => cases h
  next => cases h
  next value _ hvalue => exact isValueError_of_quotes hvalue (fun _ _ ↦ rfl) h

theorem isValueError_of_markers {error : ScoreError} (h : markers room id fields = .error error) :
    error.isValueError = true ∨ error = .unshown .tooDeep ∧ HasTooDeep room id fields := by
  unfold markers at h
  split at h
  next => cases h
  next value hvalue =>
    split_ifs at h
    split at h
    next => cases h
    next => exact isValueError_of_quotes hvalue (fun _ _ ↦ rfl) h

theorem isValueError_of_variation {error : ScoreError}
    (h : variation room id fields = .error error) :
    error.isValueError = true ∨ error = .unshown .tooDeep ∧ HasTooDeep room id fields := by
  unfold variation at h
  split at h
  next => cases h
  next => cases h
  next => cases h
  next value _ _ hvalue => exact isValueError_of_quotes hvalue (fun _ _ ↦ rfl) h

/-- An entry without an id is quoted in an error of a value, unless it is nested too deep. -/
theorem isValueError_of_noId {error : ScoreError}
    (h : (do .error (.noId (← entry.quote room)) : Except ScoreError Bar) = .error error) :
    error.isValueError = true ∨ error = .unshown .tooDeep ∧ IsTooDeep room entry := by
  rw [bind_eq_error_iff] at h
  rcases h with hquote | ⟨_, -, ⟨⟩⟩
  · exact (Value.isValueError_of_quote hquote).imp_right (And.imp_right .inl)
  · exact .inl rfl

/-- An entry that is not read fails for the error of a value, unless something in it is nested too
deep. -/
theorem isValueError_of_read {error : ScoreError} (h : read room fullBar entry = .error error) :
    error.isValueError = true ∨ error = .unshown .tooDeep ∧ IsTooDeep room entry := by
  unfold read at h
  cases hfields : entry.entries? with
  | none =>
    rw [hfields] at h
    exact isValueError_of_noId h
  | some fields =>
    rw [hfields] at h
    dsimp only at h
    cases hid : Value.entry? "id" fields with
    | none =>
      rw [hid] at h
      exact isValueError_of_noId h
    | some id =>
      rw [hid] at h
      have hwithin (hdeep : HasTooDeep room id fields) : IsTooDeep room entry :=
        hdeep.isTooDeep hfields hid
      simp only [bind_eq_error_iff] at h
      rcases h with hticks | ⟨_, -, hmarkers | ⟨_, -, hvariation | ⟨_, -, hread | ⟨_, -, hbar⟩⟩⟩⟩
      · exact (isValueError_of_ticks hticks).imp_right (And.imp_right hwithin)
      · exact (isValueError_of_markers hmarkers).imp_right (And.imp_right hwithin)
      · exact (isValueError_of_variation hvariation).imp_right (And.imp_right hwithin)
      · exact (Value.isValueError_of_read hread).imp_right
          (And.imp_right fun hdeep ↦ hwithin (.inl hdeep))
      · obtain ⟨cause, -, rfl⟩ := mapError_eq_error_iff.mp hbar
        exact .inl rfl

end BarEntry

namespace Score

variable {value listed : Value} {entries : List (Value × Value)} {items : List Value}
  {rhythm : Rhythm} {score : Score} {room fullBar : Nat} {bars : List Bar}

/-- A value that stands for items is read item by item. -/
theorem readBars_of_lists (h : listed.Lists items) :
    readBars room fullBar listed =
      items.mapM (BarEntry.read (room - BarEntry.calls) fullBar) := by
  unfold readBars
  by_cases htrue : listed.isTrue = true
  · have hitems : listed.items? = some items := by simpa [Value.Lists, htrue] using h
    rw [if_pos htrue, hitems]
  · rw [Bool.not_eq_true] at htrue
    rw [Value.lists_iff_of_isTrue_eq_false htrue] at h
    rw [if_neg (by simp [htrue]), h]
    rfl

/-- A value that counts as true and is no list is quoted in an error. -/
theorem readBars_of_no_list (htrue : listed.isTrue = true) (hlist : listed.items? = none) :
    readBars room fullBar listed = (do .error (.bars (← listed.quote room))) := by
  rw [readBars, if_pos htrue, hlist]

/-- An entry in a list of bars that are not read fails for the error of a value, unless something in
it is nested too deep. -/
theorem isValueError_of_mapM {error : ScoreError}
    (h : items.mapM (BarEntry.read room fullBar) = .error error) :
    error.isValueError = true ∨
      error = .unshown .tooDeep ∧ ∃ entry ∈ items, BarEntry.IsTooDeep room entry := by
  obtain ⟨before, entry, after, rfl, -, hentry⟩ := mapM_eq_error_iff.mp h
  refine (BarEntry.isValueError_of_read hentry).imp_right (And.imp_right fun hdeep ↦ ?_)
  exact ⟨entry, List.mem_append_right _ List.mem_cons_self, hdeep⟩

/-- A file with a rhythm and a list of bars is read by reading the bars. -/
theorem ofValue_eq_map_readBars (hvalue : value.entries? = some entries)
    (hrhythm : readRhythm room entries = .ok rhythm)
    (hnoText : Value.entry? "notation" entries = none)
    (hbars : Value.entry? "bars" entries = some listed) :
    ofValue room value = (readBars room rhythm.fullBar listed).map fun bars ↦
      ⟨bars, rhythm, ((Value.entry? "auftakt" entries).map Value.isTrue).getD false⟩ := by
  unfold ofValue readForm
  simp only [hvalue, hrhythm, hnoText, hbars]
  change (readBars room rhythm.fullBar listed >>= fun bars ↦ pure _) = _
  cases readBars room rhythm.fullBar listed <;> rfl

/-- A file with a rhythm that lists its bars fails if the list counts as true and is none. Otherwise
it fails if an entry is wrongly typed, and it is read just if every entry is that of a bar. The
score then has these bars in order, full bars of its rhythm where no length is given. The failures
are errors of values, unless the value to quote is nested deeper than there is room for. -/
theorem ofValue_bars_iff_isEntryOf (hvalue : value.entries? = some entries)
    (hrhythm : readRhythm room entries = .ok rhythm)
    (hnoText : Value.entry? "notation" entries = none)
    (hbars : Value.entry? "bars" entries = some listed) :
    (listed.isTrue = true → listed.items? = none →
        ∃ error, ofValue room value = .error error ∧
          (error.isValueError = true ↔ ¬ listed.IsTooDeep room)) ∧
      ∀ items, listed.Lists items →
        ((∃ entry ∈ items, BarEntry.IsWronglyTyped entry) →
          ∃ error, ofValue room value = .error error ∧
            (error.isValueError = true ∨ error = .unshown .tooDeep ∧
              ∃ entry ∈ items, BarEntry.IsTooDeep (room - BarEntry.calls) entry)) ∧
        ((∃ score, ofValue room value = .ok score) ↔
          ∀ entry ∈ items,
            ∃ bar, BarEntry.IsEntryOf (room - BarEntry.calls) rhythm.fullBar entry bar) ∧
        ∀ score, ofValue room value = .ok score → score.rhythm = rhythm ∧
          score.auftakt = ((Value.entry? "auftakt" entries).map Value.isTrue).getD false ∧
          List.Forall₂ (BarEntry.IsEntryOf (room - BarEntry.calls) rhythm.fullBar) items
            score.bars := by
  rw [ofValue_eq_map_readBars hvalue hrhythm hnoText hbars]
  simp only [map_eq_ok_iff, map_eq_error_iff]
  refine ⟨fun htrue hlist ↦ ?_, fun items hlists ↦ ?_⟩
  · rw [readBars_of_no_list htrue hlist]
    unfold Value.quote Value.IsTooDeep
    cases listed.shown room with
    | ok text => exact ⟨_, rfl, by simp [ScoreError.isValueError]⟩
    | error obstacle => exact ⟨_, rfl, by cases obstacle <;> simp [ScoreError.isValueError]⟩
  · simp only [readBars_of_lists hlists, ← BarEntry.read_eq_ok_iff]
    refine ⟨?_, ?_, ?_⟩
    · rintro ⟨entry, hentry, hwrong⟩
      have hfails (bars : List Bar) :
          items.mapM (BarEntry.read (room - BarEntry.calls) rhythm.fullBar) ≠ .ok bars := fun hall ↦ by
        obtain ⟨bar, hbar⟩ := exists_mapM_eq_ok_iff.mp ⟨bars, hall⟩ entry hentry
        exact hwrong.read_ne_ok hbar
      obtain ⟨error, herror⟩ := exists_eq_error_of_ne_ok hfails
      exact ⟨error, herror, isValueError_of_mapM herror⟩
    · rw [← exists_mapM_eq_ok_iff]
      exact ⟨fun ⟨_, bars, hall, _⟩ ↦ ⟨bars, hall⟩, fun ⟨bars, hall⟩ ↦ ⟨_, bars, hall, rfl⟩⟩
    · rintro _ ⟨bars, hall, rfl⟩
      rw [mapM_eq_ok_iff] at hall
      simp only [BarEntry.read_eq_ok_iff] at hall
      exact ⟨rfl, rfl, hall⟩

/-- A file in common time with this value for its bars. -/
def fileOfBars (listed : Value) : Value := .mapping [(.text "bars", listed)]

/-- An entry with a mark and a variation. -/
def entryOfEnding : Value :=
  .mapping [(.text "id", .text "A"), (.text "variation", .int 1),
    (.text "markers", .list [.text "repeat_end"])]

/-- An entry with null for its length. -/
def entryOfNullTicks : Value := .mapping [(.text "id", .text "B"), (.text "ticks", .null)]

/-- The entry with a mark is that of an ending, and is read as this bar. With an entry of a wrong
type, or a text for all bars, a file fails for the error of a value. -/
theorem ofValue_fileOfBars :
    (∃ score, ofValue 996 (fileOfBars (.list [entryOfEnding])) = .ok score ∧
        List.Forall₂ (BarEntry.IsEntryOf 994 960) [entryOfEnding] score.bars) ∧
      (∃ error, ofValue 996 (fileOfBars (.list [entryOfNullTicks])) = .error error ∧
        error.isValueError = true) ∧
      ∃ error, ofValue 996 (fileOfBars (.text "A")) = .error error ∧
        error.isValueError = true := by
  have hending : BarEntry.IsEntryOf 994 960 entryOfEnding (Structure.firstEndingBar "A") :=
    ⟨_, rfl, ⟨_, rfl, rfl⟩, .inr ⟨rfl, rfl⟩, ⟨[.repeatEnd], rfl, .inl ⟨_, rfl, .inl rfl⟩⟩, .inl rfl⟩
  have hwrong : BarEntry.IsWronglyTyped entryOfNullTicks := by
    rintro _ ⟨⟩
    exact .ticks rfl nofun
  have hroom : ¬ BarEntry.IsTooDeep 994 entryOfNullTicks := by
    rintro (⟨⟨⟩⟩ | ⟨_, name, value, ⟨⟩, hvalue, hdeep⟩)
    simp only [Value.entry?] at hvalue
    repeat' split at hvalue
    all_goals cases hvalue <;> cases hdeep
  have hfile (listed : Value) := @ofValue_bars_iff_isEntryOf (fileOfBars listed) listed
    [(.text "bars", listed)] Rhythm.common 996 rfl rfl rfl rfl
  refine ⟨?_, ?_, ?_⟩
  · obtain ⟨-, hiff, hbars⟩ := (hfile (.list [entryOfEnding])).2 _ (.inl rfl)
    obtain ⟨score, hscore⟩ := hiff.mpr (List.forall_mem_singleton.mpr ⟨_, hending⟩)
    exact ⟨score, hscore, (hbars score hscore).2.2⟩
  · obtain ⟨error, herror, hvalue | ⟨-, hdeep⟩⟩ :=
      ((hfile (.list [entryOfNullTicks])).2 _ (.inl rfl)).1 ⟨_, List.mem_singleton_self _, hwrong⟩
    · exact ⟨error, herror, hvalue⟩
    · obtain ⟨_, hentry, hdeep⟩ := hdeep
      rw [List.mem_singleton.mp hentry] at hdeep
      exact absurd hdeep hroom
  · obtain ⟨error, herror, hiff⟩ := (hfile (.text "A")).1 rfl rfl
    exact ⟨error, herror, hiff.mpr nofun⟩

/-- An entry with zero for its markers. -/
def entryOfZeroMarkers : Value := .mapping [(.text "id", .text "A"), (.text "markers", .int 0)]

/-- Empty lists inside each other. -/
def nested : Nat → Value
  | 0 => .list []
  | depth + 1 => .list [nested depth]

/-- Lists inside each other need as much room as they are deep. -/
theorem isTooDeep_nested {depth : Nat} (h : room ≤ depth) : (nested depth).IsTooDeep room := by
  unfold Value.IsTooDeep Value.shown
  induction depth generalizing room with
  | zero =>
    obtain rfl := Nat.le_zero.mp h
    rfl
  | succ depth ih =>
    rw [nested, Value.shownWithin]
    split
    next => rfl
    next =>
      rw [Value.shownItems, ih (by omega)]
      rfl

/-- A truth value and a number that count as false are not null and no lists, and are not refused
where a list is wanted: a file without bars and a bar without marks are read. An entry that is no
mapping and nested too deep to be quoted is refused, but for no error of a value. -/
theorem ofValue_of_false_no_list :
    (Value.bool false ≠ .null ∧ (Value.bool false).items? = none ∧
        ofValue 996 (fileOfBars (.bool false)) = .ok ⟨[], Rhythm.common, false⟩) ∧
      Value.int 0 ≠ .null ∧ (Value.int 0).items? = none ∧
        ofValue 996 (fileOfBars (.list [entryOfZeroMarkers])) =
          .ok ⟨[Structure.unmarkedBar "A"], Rhythm.common, false⟩ ∧
      ofValue 996 (fileOfBars (.list [nested 1500])) = .error (.unshown .tooDeep) ∧
        (ScoreError.unshown .tooDeep).isValueError = false := by
  refine ⟨⟨nofun, rfl, rfl⟩, nofun, rfl, ?_, ?_, rfl⟩
  have hentry : BarEntry.IsEntryOf 994 960 entryOfZeroMarkers (Structure.unmarkedBar "A") :=
    ⟨_, rfl, ⟨_, rfl, rfl⟩, .inr ⟨rfl, rfl⟩, ⟨[], rfl, .inl ⟨_, rfl, .inr ⟨rfl, rfl⟩⟩⟩, .inl rfl⟩
  · rw [ofValue_eq_map_readBars rfl rfl rfl rfl, map_eq_ok_iff]
    refine ⟨_, ?_, rfl⟩
    rw [readBars_of_lists (.inl rfl), mapM_eq_ok_iff]
    exact .cons (BarEntry.read_eq_ok_iff.mpr hentry) .nil
  · rw [ofValue_eq_map_readBars rfl rfl rfl rfl, map_eq_error_iff, readBars_of_lists (.inl rfl),
      mapM_eq_error_iff]
    have hdeep : (nested 1500).shown 994 = .error .tooDeep := isTooDeep_nested (by decide)
    refine ⟨[], nested 1500, [], rfl, nofun, ?_⟩
    change (Value.quote 994 (nested 1500) >>= fun entry ↦ .error (.noId entry)) = _
    rw [Value.quote, hdeep]
    rfl

end Score

end ScoreRepeats
