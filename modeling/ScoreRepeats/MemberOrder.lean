import ScoreRepeats.Value

/-!
# The order of the members of a set

Members are shown by their places in a table. The place of a number follows from its residue modulo
`2 ^ 61 - 1`; if it is taken, the next nine are tried as far as the table reaches, and then others.
Other members than numbers have no residue, and a set of such stays in the order in which they came.
-/

set_option autoImplicit false
set_option relaxedAutoImplicit false

namespace ScoreRepeats.MemberOrder

def modulus : Nat := Nat.pow 2 61 - 1

/-- The word of 64 bits for a number with this sign and size. Minus one shares the word of minus
two. -/
def signedWord (negative : Bool) (size : Nat) : Nat :=
  let residue := size % modulus
  if negative && residue != 0 then Nat.pow 2 64 - max residue 2 else residue

/-- The size that stands for an infinite number. -/
def infiniteSize : Nat := 314159

/-- The word of a double. A power of two counts by its exponent modulo 61. -/
def doubleWord? : Double → Option Nat
  | .finite negative mantissa exponent =>
    some (signedWord negative (mantissa * Nat.pow 2 (exponent.emod 61).toNat))
  | .infinite negative => some (signedWord negative infiniteSize)
  | .notANumber _ => none

/-- The word of a member. What is empty counts as zero. -/
def word? : Value → Option Nat
  | .bool truth => some (signedWord false (Value.ofTruth truth).toNat)
  | .int number => some (signedWord (decide (number < 0)) number.natAbs)
  | .float double => doubleWord? double
  | .text chars => if chars.isEmpty then some 0 else none
  | .bytes content => if content.isEmpty then some 0 else none
  | _ => none

/-- The number of places in the table for so many members. -/
def tableSize (count : Nat) : Nat := if count < 5 then 8 else Nat.pow 2 (Nat.log2 (2 * count) + 1)

/-- The number of places after the first that are tried before another is computed. -/
def neighbours : Nat := 9

/-- The places from one on that are tried together. -/
def triedFrom (size place : Nat) : List Nat :=
  if place + neighbours < size then (List.range (neighbours + 1)).map (place + ·) else [place]

/-- A table of members by place. -/
abbrev Table := Array (Option Value)

def isFree (table : Table) (place : Nat) : Bool := ((table[place]?).join).isNone

/-- The first free place that is tried for a member. -/
def freePlace (table : Table) : Nat → (place rest : Nat) → Nat
  | 0, place, _ => place
  | fuel + 1, place, rest =>
    match (triedFrom table.size place).find? (isFree table) with
    | some found => found
    | none => freePlace table fuel ((place * 5 + 1 + rest / 32) % table.size) (rest / 32)

/-- The table with one more member. -/
def insert (table : Table) (member : Value) (word : Nat) : Table :=
  table.setIfInBounds (freePlace table (table.size + 64) (word % table.size) word) (some member)

/-- The members in the order in which they are shown. -/
def arrange (members : List Value) : List Value :=
  match members.mapM fun member ↦ (word? member).map fun word ↦ (member, word) with
  | none => members
  | some words =>
    let empty : Table := Array.replicate (tableSize members.length) none
    (words.foldl (fun table (member, word) ↦ insert table member word) empty).toList.filterMap
      fun member ↦ member

end ScoreRepeats.MemberOrder

namespace ScoreRepeats.Value

/-- The set of these members. -/
def ofMembers (members : List Value) : Value := .set (MemberOrder.arrange members)

end ScoreRepeats.Value
