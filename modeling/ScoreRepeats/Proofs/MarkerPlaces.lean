import ScoreRepeats.MarkerIndex

/-!
# Where marks stand

A piece lists the positions of the bars that pass a test (`Structure.positionsWhere`). The list has
each position at which such a bar stands, and is as long as there are such bars. Its head is the
first of these positions (`Structure.StandsFirstAt`). A field of a marker index says all about its
mark (`Structure.IsPlaceOf`) if no more than one bar carries the mark.
-/

set_option autoImplicit false
set_option relaxedAutoImplicit false

namespace ScoreRepeats.Structure

variable {piece : Structure} {test : Bar → Bool} {p q : Nat}

/-- A bar that passes a test stands at a position. -/
def StandsAt (piece : Structure) (test : Bar → Bool) (p : Nat) : Prop :=
  ∃ bar, piece.bars[p]? = some bar ∧ test bar = true

/-- The first bar that passes a test stands at a position. -/
def StandsFirstAt (piece : Structure) (test : Bar → Bool) (p : Nat) : Prop :=
  piece.StandsAt test p ∧ ∀ q, piece.StandsAt test q → p ≤ q

/-- A field is the position of the only bar that passes a test, and is missing if there is none. -/
def IsPlaceOf (piece : Structure) (test : Bar → Bool) : Option Int → Prop
  | none => ∀ p, ¬ piece.StandsAt test p
  | some place => ∃ p : Nat, place = p ∧ piece.StandsAt test p ∧
      ∀ q, piece.StandsAt test q → q = p

/-- The listed positions are those where a bar passes the test. -/
theorem mem_positionsWhere_iff : p ∈ piece.positionsWhere test ↔ piece.StandsAt test p := by
  unfold positionsWhere StandsAt
  rw [List.mem_map]
  constructor
  · rintro ⟨⟨bar, position⟩, hmem, rfl⟩
    rw [List.mem_filter, List.mk_mem_zipIdx_iff_getElem?] at hmem
    exact ⟨bar, hmem⟩
  · rintro ⟨bar, hbar, htest⟩
    refine ⟨(bar, p), ?_, rfl⟩
    rw [List.mem_filter, List.mk_mem_zipIdx_iff_getElem?]
    exact ⟨hbar, htest⟩

/-- As many positions are listed as there are bars that pass the test. -/
theorem length_positionsWhere : (piece.positionsWhere test).length = piece.bars.countP test := by
  have hcount := congrArg (List.countP test) (List.zipIdx_map_fst 0 piece.bars)
  rw [List.countP_map] at hcount
  rw [positionsWhere, List.length_map, ← List.countP_eq_length_filter]
  exact hcount

/-- The positions are listed from first to last. -/
theorem pairwise_positionsWhere : (piece.positionsWhere test).Pairwise (· < ·) := by
  have hsublist : List.Sublist (piece.positionsWhere test) (piece.bars.zipIdx.map Prod.snd) :=
    List.filter_sublist.map Prod.snd
  rw [List.zipIdx_map_snd] at hsublist
  exact List.Pairwise.sublist hsublist List.pairwise_lt_range'

/-- If one bar at most passes the test, it stands at one position. -/
theorem eq_of_standsAt (hcount : piece.bars.countP test ≤ 1) (hp : piece.StandsAt test p)
    (hq : piece.StandsAt test q) : p = q := by
  rw [← length_positionsWhere] at hcount
  rw [← mem_positionsWhere_iff] at hp hq
  cases hlist : piece.positionsWhere test with
  | nil => simp [hlist] at hp
  | cons first rest =>
    rw [hlist, List.length_cons] at hcount
    obtain rfl : rest = [] := List.length_eq_zero_iff.mp (by omega)
    rw [hlist, List.mem_singleton] at hp hq
    rw [hp, hq]

/-- Some bar passes the test just if one stands at some position. -/
theorem countP_pos_iff : 0 < piece.bars.countP test ↔ ∃ p, piece.StandsAt test p := by
  rw [← length_positionsWhere, List.length_pos_iff_exists_mem]
  simp only [mem_positionsWhere_iff]

/-- No bar passes the test just if none stands anywhere. -/
theorem countP_eq_zero_iff : piece.bars.countP test = 0 ↔ ∀ p, ¬ piece.StandsAt test p := by
  rw [← not_exists, ← countP_pos_iff, Nat.not_lt, Nat.le_zero]

/-- A bar that passes one of two tests stands where one passes the first or the second. -/
theorem standsAt_or_iff {other : Bar → Bool} :
    piece.StandsAt (fun bar ↦ test bar || other bar) p ↔
      piece.StandsAt test p ∨ piece.StandsAt other p := by
  unfold StandsAt
  simp only [Bool.or_eq_true, and_or_left, exists_or]

/-! ### First positions -/

/-- Only one position is the first. -/
theorem StandsFirstAt.eq (hp : piece.StandsFirstAt test p) (hq : piece.StandsFirstAt test q) :
    p = q :=
  Nat.le_antisymm (hp.2 q hq.1) (hq.2 p hp.1)

/-- There is no first listed position just if no bar passes the test. -/
theorem head?_positionsWhere_eq_none_iff :
    (piece.positionsWhere test).head? = none ↔ ∀ p, ¬ piece.StandsAt test p := by
  rw [List.head?_eq_none_iff, List.eq_nil_iff_forall_not_mem]
  simp only [mem_positionsWhere_iff]

/-- The first listed position is that of the first bar that passes the test. -/
theorem standsFirstAt_of_head?_positionsWhere (hhead : (piece.positionsWhere test).head? = some p) :
    piece.StandsFirstAt test p := by
  obtain ⟨later, hlist⟩ := List.head?_eq_some_iff.mp hhead
  have hsorted : (piece.positionsWhere test).Pairwise (· < ·) := pairwise_positionsWhere
  rw [hlist, List.pairwise_cons] at hsorted
  refine ⟨mem_positionsWhere_iff.mp (List.mem_of_head? hhead), fun q hq ↦ ?_⟩
  rw [← mem_positionsWhere_iff, hlist] at hq
  rcases List.mem_cons.mp hq with rfl | hq
  · exact Nat.le_refl _
  · exact Nat.le_of_lt (hsorted.1 q hq)

/-- Where some bar passes the test, there is a first. -/
theorem StandsAt.exists_first (hp : piece.StandsAt test p) : ∃ q, piece.StandsFirstAt test q := by
  cases hhead : (piece.positionsWhere test).head? with
  | none => exact absurd hp (head?_positionsWhere_eq_none_iff.mp hhead p)
  | some q => exact ⟨q, standsFirstAt_of_head?_positionsWhere hhead⟩

/-- The position of a mark is that of the first bar with the mark. -/
theorem positionOf_eq_some_iff {marker : Marker} :
    piece.positionOf marker = some p ↔ piece.StandsFirstAt (·.has marker) p := by
  constructor
  · exact standsFirstAt_of_head?_positionsWhere
  · intro hfirst
    cases hhead : piece.positionOf marker with
    | none => exact absurd hfirst.1 (head?_positionsWhere_eq_none_iff.mp hhead p)
    | some q => rw [hfirst.eq (standsFirstAt_of_head?_positionsWhere hhead)]

/-- A mark has no position just if no bar carries it. -/
theorem positionOf_eq_none_iff {marker : Marker} :
    piece.positionOf marker = none ↔ ∀ p, ¬ piece.StandsAt (·.has marker) p :=
  head?_positionsWhere_eq_none_iff

/-! ### Fields of an index -/

/-- Where a field says all about a mark, a bar with the mark stands at the position in the field. -/
theorem IsPlaceOf.eq_some {field : Option Int} (hfield : piece.IsPlaceOf test field)
    (hp : piece.StandsAt test p) : field = some (p : Int) := by
  cases field with
  | none => exact absurd hp (hfield p)
  | some place =>
    obtain ⟨q, rfl, -, honly⟩ := hfield
    rw [honly p hp]

/-- Where a field says all about a mark, the position in the field is that of a bar with the mark.
-/
theorem IsPlaceOf.exists_standsAt {place : Int} (hfield : piece.IsPlaceOf test (some place)) :
    ∃ p : Nat, place = p ∧ piece.StandsAt test p := by
  obtain ⟨p, hplace, hp, -⟩ := hfield
  exact ⟨p, hplace, hp⟩

/-- The first listed position says all, if one bar at most passes the test. -/
theorem isPlaceOf_head? (hcount : piece.bars.countP test ≤ 1) :
    piece.IsPlaceOf test ((piece.positionsWhere test).head?.map Int.ofNat) := by
  cases hlist : piece.positionsWhere test with
  | nil =>
    intro p hp
    rw [← mem_positionsWhere_iff, hlist] at hp
    cases hp
  | cons first rest =>
    have hfirst : piece.StandsAt test first := by
      rw [← mem_positionsWhere_iff, hlist]
      exact List.mem_cons_self
    exact ⟨first, rfl, hfirst, fun q hq ↦ eq_of_standsAt hcount hq hfirst⟩

end ScoreRepeats.Structure
