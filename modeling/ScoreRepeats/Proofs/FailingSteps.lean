import Mathlib.Data.List.Forall2

/-!
# Steps that may fail

Bars and tokens are taken one after the other, and taking one may fail. A run of such steps succeeds
just if its last step succeeds after the others (`foldlM_concat_eq_ok_iff`), and fails where its
first failing step does (`foldlM_eq_error_iff`). A list is worked off in the same way item by item
(`mapM_eq_ok_iff`, `mapM_eq_error_iff`).
-/

set_option autoImplicit false
set_option relaxedAutoImplicit false

namespace ScoreRepeats

variable {ε α β σ : Type}

/-- What a binding of computations gives comes from a first result. -/
theorem bind_eq_ok_iff {first : Except ε α} {next : α → Except ε β} {result : β} :
    first >>= next = .ok result ↔ ∃ middle, first = .ok middle ∧ next middle = .ok result := by
  cases first with
  | error error => simp [bind, Except.bind]
  | ok middle => simp [bind, Except.bind]

/-- A binding of computations fails in the first or after it. -/
theorem bind_eq_error_iff {first : Except ε α} {next : α → Except ε β} {error : ε} :
    first >>= next = .error error ↔
      first = .error error ∨ ∃ middle, first = .ok middle ∧ next middle = .error error := by
  cases first with
  | error other => simp [bind, Except.bind]
  | ok middle => simp [bind, Except.bind]

/-- A mapped result comes from a result. -/
theorem map_eq_ok_iff {first : Except ε α} {f : α → β} {result : β} :
    first.map f = .ok result ↔ ∃ middle, first = .ok middle ∧ f middle = result := by
  cases first with
  | error error => simp [Except.map]
  | ok middle => simp [Except.map]

/-- Mapping results leaves failures as they are. -/
theorem map_eq_error_iff {first : Except ε α} {f : α → β} {error : ε} :
    first.map f = .error error ↔ first = .error error := by
  cases first with
  | error other => simp [Except.map]
  | ok middle => simp [Except.map]

/-- Other words for failures leave results as they are. -/
theorem mapError_eq_ok_iff {ε' : Type} {first : Except ε α} {f : ε → ε'} {result : α} :
    first.mapError f = .ok result ↔ first = .ok result := by
  cases first <;> simp [Except.mapError]

/-- A failure in other words comes from a failure. -/
theorem mapError_eq_error_iff {ε' : Type} {first : Except ε α} {f : ε → ε'} {error : ε'} :
    first.mapError f = .error error ↔ ∃ cause, first = .error cause ∧ f cause = error := by
  cases first <;> simp [Except.mapError]

/-- What gives no result fails. -/
theorem exists_eq_error_of_ne_ok {first : Except ε α} (h : ∀ result, first ≠ .ok result) :
    ∃ error, first = .error error := by
  cases first with
  | error error => exact ⟨error, rfl⟩
  | ok result => exact absurd rfl (h result)

section Run

variable {step : σ → α → Except ε σ} {items : List α} {item : α} {state next : σ} {error : ε}

/-- The last of many steps is taken after the others. -/
theorem foldlM_concat_eq_ok_iff :
    (items ++ [item]).foldlM step state = .ok next ↔
      ∃ middle, items.foldlM step state = .ok middle ∧ step middle item = .ok next := by
  rw [List.foldlM_append, bind_eq_ok_iff]
  simp only [List.foldlM_cons, List.foldlM_nil, bind_pure]

/-- More steps go on from where the first ones lead. -/
theorem foldlM_append_of_eq_ok {more : List α} (h : items.foldlM step state = .ok next) :
    (items ++ more).foldlM step state = more.foldlM step next := by
  rw [List.foldlM_append, h]
  rfl

/-- Many steps fail just if one of them fails after those before it were taken. -/
theorem foldlM_eq_error_iff :
    items.foldlM step state = .error error ↔
      ∃ before item after middle, items = before ++ item :: after ∧
        before.foldlM step state = .ok middle ∧ step middle item = .error error := by
  constructor
  · intro h
    induction items generalizing state with
    | nil => cases h
    | cons first rest ih =>
      rw [List.foldlM_cons, bind_eq_error_iff] at h
      rcases h with hfirst | ⟨second, hfirst, hrest⟩
      · exact ⟨[], first, rest, state, rfl, rfl, hfirst⟩
      · obtain ⟨before, item, after, middle, rfl, hbefore, hitem⟩ := ih hrest
        refine ⟨first :: before, item, after, middle, rfl, ?_, hitem⟩
        rw [List.foldlM_cons, bind_eq_ok_iff]
        exact ⟨second, hfirst, hbefore⟩
  · rintro ⟨before, item, after, middle, rfl, hbefore, hitem⟩
    rw [List.foldlM_append, bind_eq_error_iff]
    refine .inr ⟨middle, hbefore, ?_⟩
    rw [List.foldlM_cons, bind_eq_error_iff]
    exact .inl hitem

end Run

/-- Each item of a list that is paired with another has a partner there. -/
theorem exists_mem_of_forall₂ {r : α → β → Prop} {items : List α} {others : List β}
    (h : List.Forall₂ r items others) {item : α} (hitem : item ∈ items) :
    ∃ other ∈ others, r item other := by
  induction h with
  | nil => cases hitem
  | cons hfirst _ ih =>
    rcases List.mem_cons.mp hitem with rfl | hrest
    · exact ⟨_, List.mem_cons_self, hfirst⟩
    · obtain ⟨other, hother, hr⟩ := ih hrest
      exact ⟨other, List.mem_cons_of_mem _ hother, hr⟩

section Each

variable {work : α → Except ε β} {items : List α} {error : ε}

/-- Every item is worked off just if each gives its result. -/
theorem mapM_eq_ok_iff {results : List β} :
    items.mapM work = .ok results ↔
      List.Forall₂ (fun item result ↦ work item = .ok result) items results := by
  induction items generalizing results with
  | nil =>
    rw [List.mapM_nil, List.forall₂_nil_left_iff]
    exact ⟨fun h ↦ (Except.ok.inj h).symm, fun h ↦ congrArg Except.ok h.symm⟩
  | cons item rest ih =>
    rw [List.mapM_cons, bind_eq_ok_iff, List.forall₂_cons_left_iff]
    refine exists_congr fun result ↦ ?_
    rw [bind_eq_ok_iff]
    constructor
    · rintro ⟨hitem, more, hrest, hpure⟩
      exact ⟨more, hitem, ih.mp hrest, (Except.ok.inj hpure).symm⟩
    · rintro ⟨more, hitem, hrest, rfl⟩
      exact ⟨hitem, more, ih.mpr hrest, rfl⟩

/-- Every item is worked off just if each can be. -/
theorem exists_mapM_eq_ok_iff :
    (∃ results, items.mapM work = .ok results) ↔
      ∀ item ∈ items, ∃ result, work item = .ok result := by
  simp only [mapM_eq_ok_iff]
  induction items with
  | nil => simp
  | cons item rest ih =>
    rw [List.forall_mem_cons, ← ih]
    constructor
    · rintro ⟨_, hall⟩
      obtain ⟨result, results, hitem, hrest, -⟩ := List.forall₂_cons_left_iff.mp hall
      exact ⟨⟨result, hitem⟩, ⟨results, hrest⟩⟩
    · rintro ⟨⟨result, hitem⟩, results, hrest⟩
      exact ⟨result :: results, .cons hitem hrest⟩

/-- Working off a list fails just if an item fails after those before it gave results. -/
theorem mapM_eq_error_iff :
    items.mapM work = .error error ↔
      ∃ before item after, items = before ++ item :: after ∧
        (∀ earlier ∈ before, ∃ result, work earlier = .ok result) ∧ work item = .error error := by
  constructor
  · intro h
    induction items with
    | nil => cases h
    | cons first rest ih =>
      rw [List.mapM_cons, bind_eq_error_iff] at h
      rcases h with hfirst | ⟨result, hfirst, hrest⟩
      · exact ⟨[], first, rest, rfl, by simp, hfirst⟩
      · rw [bind_eq_error_iff] at hrest
        obtain ⟨before, item, after, rfl, hbefore, hitem⟩ :=
          ih (hrest.resolve_right fun ⟨_, _, hpure⟩ ↦ by cases hpure)
        refine ⟨first :: before, item, after, rfl, ?_, hitem⟩
        exact List.forall_mem_cons.mpr ⟨⟨result, hfirst⟩, hbefore⟩
  · rintro ⟨before, item, after, rfl, hbefore, hitem⟩
    induction before with
    | nil =>
      rw [List.nil_append, List.mapM_cons, bind_eq_error_iff]
      exact .inl hitem
    | cons first rest ih =>
      obtain ⟨⟨result, hfirst⟩, hrest⟩ := List.forall_mem_cons.mp hbefore
      rw [List.cons_append, List.mapM_cons, bind_eq_error_iff]
      refine .inr ⟨result, hfirst, ?_⟩
      rw [bind_eq_error_iff]
      exact .inl (ih hrest)

end Each

end ScoreRepeats
