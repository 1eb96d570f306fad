import ScoreRepeats.Yaml.Graph
import ScoreRepeats.Yaml.TokenStream

/-!
# Documents of YAML texts

The graph of nodes that the tokens of a text form. A text holds at most one document; without one
there is no graph. An alias is another place of the node that it names, which need not be complete
yet.
-/

set_option autoImplicit false
set_option relaxedAutoImplicit false

namespace ScoreRepeats.Yaml

/-- The names that anchors have given so far, with the numbers of their nodes. -/
abbrev Anchors := List (List Char × Nat)

/-- What the start of a tag name is short for. -/
abbrev Handles := List (List Char × List Char)

/-- The state of forming nodes. -/
structure Composition where
  tokens : List Token
  /-- What is wrong after these tokens. -/
  fault : Option Error
  handles : Handles
  nodes : Array Node
  anchors : Anchors
  /-- The nodes that are not complete. -/
  opened : List Nat
  /-- Whether a node was named inside itself. -/
  cyclic : Bool

/-- A step of forming nodes. -/
abbrev Compose := StateT Composition (Except Error)

namespace Compose

def malformed {α : Type} : Compose α := throw .malformed

/-- The next token, if there is one. Past the last one before a fault it is the fault that is met. -/
def peek : Compose (Option Token) := do
  let state ← get
  match state.tokens, state.fault with
  | token :: _, _ => pure (some token)
  | [], some error => throw error
  | [], none => pure none

def skip : Compose Unit := modify fun state ↦ { state with tokens := state.tokens.tail }

/-- Whether the next token is among these. -/
def sees (tokens : List Token) : Compose Bool := do
  pure ((← peek).any fun token ↦ tokens.contains token)

/-- Passes over a token, which must be this one. -/
def expect (token : Token) : Compose Unit := do
  if ← sees [token] then skip else malformed

/-- The anchor that stands here, if any. -/
def anchor : Compose (Option (List Char)) := do
  match ← peek with
  | some (.anchor name) => skip; pure (some name)
  | _ => pure none

/-- The tag that stands here, if any. -/
def tag : Compose (Option TagName) := do
  match ← peek with
  | some (.tag name) => skip; pure (some name)
  | _ => pure none

/-- An anchor and a tag in any order. -/
def properties : Compose (Option (List Char) × Option TagName) := do
  match ← anchor with
  | some name => pure (some name, ← tag)
  | none =>
    match ← tag with
    | some name => pure (← anchor, some name)
    | none => pure (none, none)

/-- The full name of a tag. -/
def fullName (name : TagName) : Compose (List Char) := do
  match name.handle with
  | none => pure name.suffix
  | some handle =>
    match (← get).handles.lookup handle with
    | none => malformed
    | some start => pure (start ++ name.suffix)

/-- The explicit type of a node; the tag `!` leaves the type open. -/
def explicitTag (name : Option TagName) : Compose (Option Tag × Bool) := do
  match name with
  | none => pure (none, false)
  | some name =>
    let full ← fullName name
    pure (if full = ['!'] then (none, true) else (some (.ofName full), false))

/-- Adds a complete node and gives its number. -/
def add (node : Node) : Compose Nat :=
  modifyGet fun state ↦
    let number := state.nodes.size
    (number, { state with nodes := state.nodes.push node })

/-- Gives a number to a node that begins here, and its name to the number; no name may be given
twice. -/
def openNode (name : Option (List Char)) : Compose Nat := do
  let number ← add .absent
  modify fun state ↦ { state with opened := number :: state.opened }
  match name with
  | none => pure number
  | some name =>
    if ((← get).anchors.lookup name).isSome then malformed
    else
      modify fun state ↦ { state with anchors := (name, number) :: state.anchors }
      pure number

/-- Completes the node that was begun last. -/
def closeNode (number : Nat) (node : Node) : Compose Unit :=
  modify fun state ↦
    { state with nodes := state.nodes.setIfInBounds number node, opened := state.opened.drop 1 }

/-- The number of the node with a name. -/
def aliased (name : List Char) : Compose Nat := do
  let state ← get
  match state.anchors.lookup name with
  | none => malformed
  | some number =>
    if state.opened.contains number then set { state with cyclic := true }
    pure number

/-- A node of which there is only an anchor or a tag. -/
def bare (name : Option (List Char)) (tagName : Option TagName) (explicit : Option Tag) :
    Compose Node :=
  if name.isSome || tagName.isSome then pure ⟨explicit.getD (.ofPlain []), .scalar []⟩
  else malformed

mutual

/-- The node that starts here, by its number. `block` admits blocks, `indentless` a sequence whose
entries are not indented. -/
def node : Nat → (block indentless : Bool) → Compose Nat
  | 0, _, _ => malformed
  | fuel + 1, block, indentless => do
    match ← peek with
    | some (.alias name) => skip; aliased name
    | _ =>
      let (name, tagName) ← properties
      let (explicit, free) ← explicitTag tagName
      let next ← peek
      let number ← openNode name
      let sequence (items : List Nat) : Node := ⟨explicit.getD .sequence, .sequence items⟩
      let mapping (entries : List (Nat × Nat)) : Node := ⟨explicit.getD .mapping, .mapping entries⟩
      let result ←
        match next with
        | some .blockEntry =>
          if indentless then sequence <$> indentlessItems fuel []
          else bare name tagName explicit
        | some (.scalar text plain) =>
          skip
          pure ⟨explicit.getD (if plain || free then .ofPlain text else .text), .scalar text⟩
        | some .flowSequenceStart => skip; sequence <$> flowItems fuel true []
        | some .flowMappingStart => skip; mapping <$> flowEntries fuel true []
        | some .blockSequenceStart =>
          if block then
            skip; sequence <$> blockItems fuel []
          else bare name tagName explicit
        | some .blockMappingStart =>
          if block then
            skip; mapping <$> blockEntries fuel []
          else bare name tagName explicit
        | _ => bare name tagName explicit
      closeNode number result
      pure number

/-- A node, or an absent one before these tokens. -/
def nodeUnless (fuel : Nat) (tokens : List Token) (block indentless : Bool) : Compose Nat := do
  match fuel with
  | 0 => malformed
  | fuel + 1 => if ← sees tokens then add .absent else node fuel block indentless

/-- The items of a block sequence, after those that are given latest first. -/
def blockItems : Nat → List Nat → Compose (List Nat)
  | 0, _ => malformed
  | fuel + 1, done => do
    if ← sees [.blockEntry] then
      skip
      let item ← nodeUnless fuel [.blockEntry, .blockEnd] true false
      blockItems fuel (item :: done)
    else
      expect .blockEnd
      pure done.reverse

/-- The items of a sequence whose entries are not indented. -/
def indentlessItems : Nat → List Nat → Compose (List Nat)
  | 0, _ => malformed
  | fuel + 1, done => do
    if ← sees [.blockEntry] then
      skip
      let item ← nodeUnless fuel [.blockEntry, .key, .value, .blockEnd] true false
      indentlessItems fuel (item :: done)
    else pure done.reverse

/-- The entries of a block mapping. -/
def blockEntries : Nat → List (Nat × Nat) → Compose (List (Nat × Nat))
  | 0, _ => malformed
  | fuel + 1, done => do
    if ← sees [.key] then
      skip
      let key ← nodeUnless fuel [.key, .value, .blockEnd] true true
      let value ←
        if ← sees [.value] then
          skip
          nodeUnless fuel [.key, .value, .blockEnd] true true
        else add .absent
      blockEntries fuel ((key, value) :: done)
    else
      expect .blockEnd
      pure done.reverse

/-- A key after its indicator and the value that belongs to it, inside brackets. -/
def flowPair (fuel : Nat) (closing : Token) : Compose (Nat × Nat) := do
  match fuel with
  | 0 => malformed
  | fuel + 1 =>
    let key ← nodeUnless fuel [.value, .flowEntry, closing] false false
    if ← sees [.value] then
      skip
      pure (key, ← nodeUnless fuel [.flowEntry, closing] false false)
    else pure (key, ← add .absent)

/-- The items between square brackets; a key among them forms a mapping of its own. -/
def flowItems : Nat → (first : Bool) → List Nat → Compose (List Nat)
  | 0, _, _ => malformed
  | fuel + 1, first, done => do
    if !first && !(← sees [.flowSequenceEnd]) then expect .flowEntry
    if ← sees [.flowSequenceEnd] then
      skip
      pure done.reverse
    else if ← sees [.key] then
      skip
      let pair ← flowPair fuel .flowSequenceEnd
      let item ← add ⟨.mapping, .mapping [pair]⟩
      flowItems fuel false (item :: done)
    else
      let item ← node fuel false false
      flowItems fuel false (item :: done)

/-- The entries between braces. -/
def flowEntries : Nat → (first : Bool) → List (Nat × Nat) → Compose (List (Nat × Nat))
  | 0, _, _ => malformed
  | fuel + 1, first, done => do
    if !first && !(← sees [.flowMappingEnd]) then expect .flowEntry
    if ← sees [.flowMappingEnd] then
      skip
      pure done.reverse
    else if ← sees [.key] then
      skip
      let pair ← flowPair fuel .flowMappingEnd
      flowEntries fuel false (pair :: done)
    else
      let key ← node fuel false false
      flowEntries fuel false ((key, ← add .absent) :: done)

end

/-! ### The document -/

/-- The handles that need no directive. -/
def standardHandles : Handles :=
  [("!".toList, "!".toList), ("!!".toList, Tag.standard.toList)]

/-- The directives in front of a document. The version may be given once and must be 1; a handle may
be given once. -/
def directives : Nat → (versioned : Bool) → Handles → Compose Handles
  | 0, _, _ => malformed
  | fuel + 1, versioned, handles => do
    match ← peek with
    | some (.directive directive) =>
      skip
      match directive with
      | .version major =>
        if versioned || major != 1 then malformed else directives fuel true handles
      | .tagHandle handle start =>
        if (handles.lookup handle).isSome then malformed
        else directives fuel versioned ((handle, start) :: handles)
      | .unknown => directives fuel versioned handles
    | _ => pure handles

/-- Whether a document is empty before this token. -/
def endsDocument : Option Token → Bool
  | none | some (.directive _) | some .documentStart | some .documentEnd => true
  | _ => false

/-- The only document of the text, by the number of its outermost node. -/
def document (fuel : Nat) : Compose Nat := do
  match ← peek with
  | some (.directive _) | some .documentStart =>
    let handles ← directives fuel false []
    expect .documentStart
    modify fun state ↦ { state with handles := handles ++ standardHandles }
    if endsDocument (← peek) then add .absent else node fuel true false
  | _ => node fuel true false

/-- Passes over marks of the end of a document, after which nothing may follow. -/
def finish : Nat → Compose Unit
  | 0 => malformed
  | fuel + 1 => do
    match ← peek with
    | none => pure ()
    | some .documentEnd => skip; finish fuel
    | some _ => malformed

/-- The only document of the text, if there is one. -/
def documentOrNone (fuel : Nat) : Compose (Option Nat) := do
  match ← peek with
  | none => pure none
  | some _ =>
    let root ← document fuel
    finish fuel
    pure (some root)

end Compose

/-- The graph that the tokens of a text form, if there is a document. -/
def Graph.ofTokens (list : TokenList) : Except Error (Option Graph) := do
  let start : Composition := ⟨list.tokens, list.fault, Compose.standardHandles, #[], [], [], false⟩
  let (root, state) ← (Compose.documentOrNone (4 * list.tokens.length + 8)).run start
  pure (root.map fun root ↦ ⟨state.nodes, root, state.cyclic⟩)

end ScoreRepeats.Yaml
