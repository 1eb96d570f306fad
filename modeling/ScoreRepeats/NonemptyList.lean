/-!
# Non-empty lists

A list with a first element. Runs of bars, the endings of a passage and the regions of a piece are
never empty, and this type says so.
-/

set_option autoImplicit false
set_option relaxedAutoImplicit false

namespace ScoreRepeats

/-- A list with at least one element. -/
structure NonemptyList (α : Type) where
  head : α
  tail : List α
  deriving DecidableEq, Repr

namespace NonemptyList

variable {α β : Type}

def toList (items : NonemptyList α) : List α := items.head :: items.tail

def ofList? : List α → Option (NonemptyList α)
  | [] => none
  | head :: tail => some ⟨head, tail⟩

/-- The last element. -/
def last (items : NonemptyList α) : α := items.tail.getLast?.getD items.head

/-- All elements but the last. -/
def init (items : NonemptyList α) : List α := items.toList.dropLast

/-- One more element at the end. -/
def push (items : NonemptyList α) (item : α) : NonemptyList α :=
  ⟨items.head, items.tail ++ [item]⟩

/-- The elements of a list, then a last one. -/
def snoc : List α → α → NonemptyList α
  | [], item => ⟨item, []⟩
  | head :: tail, item => ⟨head, tail ++ [item]⟩

def length (items : NonemptyList α) : Nat := items.tail.length + 1

def map (f : α → β) (items : NonemptyList α) : NonemptyList β :=
  ⟨f items.head, items.tail.map f⟩

@[simp] theorem toList_ne_nil (items : NonemptyList α) : items.toList ≠ [] := by
  simp [toList]

@[simp] theorem toList_push (items : NonemptyList α) (item : α) :
    (items.push item).toList = items.toList ++ [item] := by
  simp [toList, push]

@[simp] theorem toList_snoc (items : List α) (item : α) :
    (snoc items item).toList = items ++ [item] := by
  cases items <;> simp [toList, snoc]

@[simp] theorem length_toList (items : NonemptyList α) : items.toList.length = items.length := by
  simp [toList, length]

@[simp] theorem toList_map (f : α → β) (items : NonemptyList α) :
    (items.map f).toList = items.toList.map f := by
  simp [toList, map]

theorem getLast?_toList (items : NonemptyList α) : items.toList.getLast? = some items.last := by
  cases h : items.tail.getLast? <;> simp [toList, last, List.getLast?_cons, h]

theorem init_append_last (items : NonemptyList α) : items.init ++ [items.last] = items.toList := by
  obtain ⟨earlier, split⟩ := List.getLast?_eq_some_iff.1 items.getLast?_toList
  rw [init, split, List.dropLast_concat]

theorem last_mem (items : NonemptyList α) : items.last ∈ items.toList :=
  List.mem_of_getLast? items.getLast?_toList

theorem ext {first second : NonemptyList α} (h : first.toList = second.toList) :
    first = second := by
  cases first
  cases second
  simpa [toList] using h

@[simp] theorem snoc_init_last (items : NonemptyList α) : snoc items.init items.last = items :=
  ext (by rw [toList_snoc, init_append_last])

end NonemptyList

end ScoreRepeats
