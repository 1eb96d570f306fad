import ScoreRepeats.Yaml.Cells
import ScoreRepeats.Yaml.Document

/-!
# Reading YAML texts

The value of a YAML text. The cells of its document are written out as one value from the outermost
on. A collection that holds itself gets its number as a name, and in its inside the name stands for
it, so that the value is finite.
-/

set_option autoImplicit false
set_option relaxedAutoImplicit false

namespace ScoreRepeats.Yaml

/-- The numbers of the parts of a cell. -/
def Cell.parts : Cell → List Nat
  | .scalar _ | .set _ => []
  | .list items => items
  | .pair first second => [first, second]
  | .mapping entries => entries.map Prod.snd

namespace Cells

/-- The parts of the cell with a number. -/
def partsAt (cells : Cells) (number : Nat) : List Nat := ((cells[number]?.join).map Cell.parts).getD []

/-- Marks all cells that can be reached from some, where a mark says that a cell was reached. -/
def reach (cells : Cells) : Nat → List Nat → Array Bool → Array Bool
  | 0, _, marks => marks
  | _, [], marks => marks
  | fuel + 1, number :: rest, marks =>
    if marks.getD number true then cells.reach fuel rest marks
    else cells.reach fuel (cells.partsAt number ++ rest) (marks.setIfInBounds number true)

/-- The number of places of all parts. -/
def countPlaces (cells : Cells) : Nat :=
  cells.toList.foldl (fun count cell ↦ count + ((cell.map Cell.parts).getD []).length) 0

/-- For every cell whether it holds itself. -/
def circular (cells : Cells) : Array Bool :=
  let fuel := 2 * cells.countPlaces + 1
  (Array.range cells.size).map fun number ↦
    (cells.reach fuel (cells.partsAt number) (Array.replicate cells.size false)).getD number false

/-- The values that were written out so far, by the numbers of their cells. -/
abbrev Written := StateM (Array (Option Value))

/-- The value of a cell inside those with the numbers `outer`. That of a cell that does not hold
itself is the same wherever the cell stands, and is written out only once. -/
def valueAt (cells : Cells) (circular : Array Bool) :
    Nat → (outer : List Nat) → (number : Nat) → Written Value
  | 0, _, _ => pure .null
  | fuel + 1, outer, number => do
    let holdsItself := circular.getD number false
    if holdsItself && outer.contains number then pure (.again number)
    else match ((← get)[number]?).join with
      | some value => pure value
      | none => do
        let part := cells.valueAt circular fuel (number :: outer)
        let value ← match (cells[number]?).join with
          | none => pure .null
          | some (.scalar value) => pure value
          | some (.list items) => .list <$> items.mapM part
          | some (.pair first second) => do pure (.pair (← part first) (← part second))
          | some (.set members) => pure (.set members)
          | some (.mapping entries) =>
            .mapping <$> entries.mapM fun (key, value) ↦ do pure (key, ← part value)
        if holdsItself then pure (.named number value)
        else
          modify fun written ↦ written.setIfInBounds number (some value)
          pure value

/-- The value of a cell with all that it holds. Only if `cyclic` may there be a cell that holds
itself. -/
def value (cells : Cells) (cyclic : Bool) (root : Nat) : Value :=
  let circular := if cyclic then cells.circular else #[]
  ((cells.valueAt circular (cells.size + 1) [] root).run (Array.replicate cells.size none)).1

end Cells

/-! ### Texts -/

/-- The text with every end of line read as a line feed. -/
def unifyLines : List Char → List Char
  | [] => []
  | '\r' :: '\n' :: rest => '\n' :: unifyLines rest
  | '\r' :: rest => '\n' :: unifyLines rest
  | char :: rest => char :: unifyLines rest

/-- A character that a text may hold. -/
def isAllowed (char : Char) : Bool :=
  let code := char.toNat
  code == 0x09 || code == 0x0a || (0x20 ≤ code && code ≤ 0x7e) || code == 0x85
    || (0xa0 ≤ code && code ≤ 0xfffd) || 0x10000 ≤ code

/-- The value of a text; a text without a document has the null value. -/
def read (text : String) : Except Error Value := do
  let chars := unifyLines text.toList
  if chars.all isAllowed then
    match ← Graph.ofTokens (.ofText chars) with
    | none => pure .null
    | some graph => do
      let cells ← graph.cells
      pure (cells.value graph.cyclic graph.root)
  else .error .malformed

end ScoreRepeats.Yaml
