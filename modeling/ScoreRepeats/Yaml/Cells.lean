import ScoreRepeats.MemberOrder
import ScoreRepeats.Yaml.Graph
import ScoreRepeats.Yaml.ScalarValue

/-!
# The contents of the nodes of a document

A cell says what a node holds: the value of a scalar, or the numbers of the cells of its parts. Every
node that is reached from the outermost one gets its cell once (`visit`), wherever it has its places.
A collection is left empty at first and filled after all those that were reached before it (`fill`),
so that it may hold itself. Of several faults the one that this order meets first counts.

Before a mapping is filled, what is merged into it takes the place of the merge keys (`flatten`); its
own entries come after that. In a mapping the last of two equal keys counts, and a collection cannot
be a key.
-/

set_option autoImplicit false
set_option relaxedAutoImplicit false

namespace ScoreRepeats.Yaml

/-- What a node holds. Parts are given by the numbers of their cells. -/
inductive Cell
  | scalar (value : Value)
  | list (items : List Nat)
  | pair (first second : Nat)
  | set (members : List Value)
  | mapping (entries : List (Value × Nat))
  deriving Repr

/-- The cells of a document by number; nothing where none is needed. -/
abbrev Cells := Array (Option Cell)

/-- The entries of a mapping node. -/
abbrev Entries := List (Nat × Nat)

/-- The state of filling cells. -/
structure Filling where
  /-- The nodes; mappings change when others are merged into them. -/
  nodes : Array Node
  /-- The cells of the nodes that were reached, and those of pairs after them. -/
  cells : Cells
  /-- The collections that wait to be filled, the latest first. -/
  waiting : List Nat
  /-- The number of merge keys at the start. Each of them is taken once. -/
  merges : Nat

/-- A step of filling cells. -/
abbrev Fill := StateT Filling (Except Error)

namespace Fill

def malformed {α : Type} : Fill α := throw .malformed

def nodeAt (number : Nat) : Fill Node := do
  match (← get).nodes[number]? with
  | some node => pure node
  | none => malformed

def setNode (number : Nat) (node : Node) : Fill Unit :=
  modify fun state ↦ { state with nodes := state.nodes.setIfInBounds number node }

def cellAt? (number : Nat) : Fill (Option Cell) := do pure ((← get).cells[number]?).join

def setCell (number : Nat) (cell : Cell) : Fill Unit :=
  modify fun state ↦ { state with cells := state.cells.setIfInBounds number (some cell) }

/-- Adds the cell of a pair and gives its number. -/
def addPair (first second : Nat) : Fill Nat :=
  modifyGet fun state ↦
    let number := state.cells.size
    (number, { state with cells := state.cells.push (some (.pair first second)) })

/-! ### Merging -/

def isMergeKey (key : Nat) : Fill Bool := do pure ((← nodeAt key).tag == .merge)

/-- Takes the first merge key from entries, with what is to be merged. -/
def takeMerge? : Entries → Fill (Option (Nat × Entries))
  | [] => pure none
  | (key, value) :: rest => do
    if ← isMergeKey key then pure (some (value, rest))
    else
      let found ← takeMerge? rest
      pure (found.map fun (source, others) ↦ (source, (key, value) :: others))

/-- Makes a text of the key that stands for the mapping itself. -/
def renameSelf (key : Nat) : Fill Unit := do
  let node ← nodeAt key
  if node.tag == .self then setNode key { node with tag := .text }

/-- The entries of a mapping node. -/
def entriesOf (number : Nat) : Fill Entries := do
  match (← nodeAt number).content with
  | .mapping entries => pure entries
  | _ => malformed

def setEntries (number : Nat) (entries : Entries) : Fill Unit := do
  setNode number { ← nodeAt number with content := .mapping entries }

mutual

/-- Puts what is merged into a mapping before its own entries. `merged` is what was found so far.
A mapping that is merged into itself is flattened on the way. -/
def flatten : Nat → (number : Nat) → (merged : Entries) → Fill Unit
  | 0, _, _ => malformed
  | fuel + 1, number, merged => do
    let entries ← entriesOf number
    match ← takeMerge? entries with
    | none =>
      entries.forM fun (key, _) ↦ renameSelf key
      setEntries number (merged ++ entries)
    | some (source, others) =>
      setEntries number others
      let more ← sources fuel source
      flatten fuel number (merged ++ more)

/-- The entries of a mapping, flattened, or of those in a list, the first one last. -/
def sources : Nat → (number : Nat) → Fill Entries
  | 0, _ => malformed
  | fuel + 1, number => do
    match (← nodeAt number).content with
    | .mapping _ =>
      flatten fuel number []
      entriesOf number
    | .sequence items => do
      let found ← items.mapM fun item ↦ do
        let _ ← entriesOf item
        flatten fuel item []
        entriesOf item
      pure found.reverse.flatten
    | .scalar _ => malformed

end

/-! ### Cells -/

/-- The text of a scalar, or of the entry that stands for a mapping itself. -/
def textAt : Nat → (number : Nat) → Fill (List Char)
  | 0, _ => throw .endless
  | fuel + 1, number => do
    match (← nodeAt number).content with
    | .scalar text => pure text
    | .sequence _ => malformed
    | .mapping entries => do
      let tags ← entries.mapM fun (key, value) ↦ do pure ((← nodeAt key).tag, value)
      match tags.find? fun (tag, _) ↦ tag == .self with
      | some (_, value) => textAt fuel value
      | none => malformed

/-- What is no number gets a mark of its own from its node, unless it is the common one. -/
def marked (number : Nat) : Value → Value
  | .float (.notANumber mark) => .float (.notANumber (if mark = 0 then 0 else number + 1))
  | value => value

/-- The cell of a scalar. -/
def scalarCell (number : Nat) (node : Node) : Fill Cell := do
  let text ← textAt ((← get).nodes.size + 1) number
  match node.tag, node.content with
  | .timestamp, .mapping _ => throw .wrappedTimestamp
  | tag, _ => pure (.scalar (marked number (← scalarValue tag text)))

/-- A collection without its parts, for the tags of collections. -/
def emptyCell? : Tag → Option Cell
  | .sequence | .pairs => some (.list [])
  | .mapping => some (.mapping [])
  | .set => some (.set [])
  | _ => none

/-- Gives a node its cell when it is reached for the first time. -/
def visit (number : Nat) : Fill Unit := do
  if (← cellAt? number).isNone then
    let node ← nodeAt number
    match emptyCell? node.tag with
    | some cell =>
      setCell number cell
      modify fun state ↦ { state with waiting := number :: state.waiting }
    | none =>
      match node.tag with
      | .merge | .self | .unknown => malformed
      | _ => setCell number (← scalarCell number node)

/-- The value of a key, which must be a scalar. -/
def keyValue (number : Nat) : Fill Value := do
  visit number
  match ← cellAt? number with
  | some (.scalar value) => pure value
  | _ => malformed

/-- The distinct entries of a mapping. -/
def mappingParts (number : Nat) : Fill (List (Value × Nat)) := do
  let _ ← entriesOf number
  flatten (2 * (← get).merges + 2) number []
  let parts ← (← entriesOf number).mapM fun (key, value) ↦ do
    let key ← keyValue key
    visit value
    pure (key, value)
  pure (Value.distinct parts)

/-- The pair that a mapping with one entry stands for. -/
def pairOf (number : Nat) : Fill Nat := do
  match ← entriesOf number with
  | [(first, second)] =>
    visit first
    visit second
    addPair first second
  | _ => malformed

/-- Fills a collection. -/
def fill (number : Nat) : Fill Unit := do
  let node ← nodeAt number
  match node.tag, node.content with
  | .sequence, .sequence items =>
    items.forM visit
    setCell number (.list items)
  | .pairs, .sequence items => setCell number (.list (← items.mapM pairOf))
  | .mapping, _ => setCell number (.mapping (← mappingParts number))
  | .set, _ => do
    let parts ← mappingParts number
    match Value.ofMembers (parts.map Prod.fst) with
    | .set members => setCell number (.set members)
    | _ => malformed
  | _, _ => malformed

/-- Fills all collections that wait, and those that are reached on the way. -/
def fillAll : Nat → Fill Unit
  | 0 => malformed
  | fuel + 1 => do
    match (← get).waiting.reverse with
    | [] => pure ()
    | waiting =>
      modify fun state ↦ { state with waiting := [] }
      waiting.forM fill
      fillAll fuel

end Fill

/-- The number of merge keys in a document. -/
def Graph.countMerges (graph : Graph) : Nat :=
  let isMerge (entry : Nat × Nat) : Bool := graph.nodes[entry.1]?.any fun key ↦ key.tag == .merge
  let count (node : Node) : Nat :=
    match node.content with
    | .mapping entries => entries.countP isMerge
    | _ => 0
  graph.nodes.toList.foldl (fun total node ↦ total + count node) 0

/-- The cells of a document. -/
def Graph.cells (graph : Graph) : Except Error Cells := do
  let size := graph.nodes.size
  let start : Filling := ⟨graph.nodes, Array.replicate size none, [], graph.countMerges⟩
  let (_, filling) ← (do Fill.visit graph.root; Fill.fillAll (size + 1) : Fill Unit).run start
  pure filling.cells

end ScoreRepeats.Yaml
