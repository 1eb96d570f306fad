import ScoreRepeats.Yaml.Property

/-!
# The tokens of a YAML text

A text is read from left to right, with the indentation of the open blocks and the number of open
flow brackets at hand. A key of a mapping is known as a key only at the colon after it; until then
its place among the tokens is remembered, one for every level of brackets, and it must be short and
end on the line on which it began. `TokenList.ofText` gives the tokens of a whole text.
-/

set_option autoImplicit false
set_option relaxedAutoImplicit false

namespace ScoreRepeats.Yaml

/-- The place of something that may turn out to be a key. -/
structure KeyPlace where
  /-- The number of tokens before it. -/
  number : Nat
  /-- It stands where the block must go on with a key. -/
  required : Bool
  index : Nat
  line : Nat
  column : Nat
  deriving DecidableEq, Repr

/-- A key is not longer than this. -/
def maxKeyLength : Nat := 1024

/-- The state of reading tokens. -/
structure TokenStream where
  cursor : Cursor
  /-- The tokens so far, the latest first. -/
  tokens : List Token
  /-- The number of tokens so far. -/
  count : Nat
  /-- The number of open flow brackets. -/
  depth : Nat
  /-- The column of the innermost open block. -/
  indent : Int
  /-- The columns of the blocks around it. -/
  outer : List Int
  /-- Whether a key may start here. -/
  keyAllowed : Bool
  /-- The possible keys by the number of brackets around them. -/
  keys : List (Nat × KeyPlace)
  deriving DecidableEq, Repr

namespace TokenStream

def start (text : List Char) : TokenStream where
  cursor := Cursor.start text
  tokens := []
  count := 0
  depth := 0
  indent := -1
  outer := []
  keyAllowed := true
  keys := []

def push (state : TokenStream) (token : Token) : TokenStream :=
  { state with tokens := token :: state.tokens, count := state.count + 1 }

/-- Puts a token before all but the first `number` tokens. -/
def pushAt (state : TokenStream) (number : Nat) (token : Token) : TokenStream :=
  let later := state.count - number
  { state with
    tokens := state.tokens.take later ++ token :: state.tokens.drop later
    count := state.count + 1 }

def moveTo (state : TokenStream) (cursor : Cursor) : TokenStream := { state with cursor }

def inFlow (state : TokenStream) : Bool := state.depth != 0

/-! ### Blocks -/

/-- Ends the blocks that are indented more than a column. -/
def unwindFrom (column : Int) : List Int → TokenStream → TokenStream
  | [], state => state
  | around :: outer, state =>
    if column < state.indent then
      unwindFrom column outer { state.push .blockEnd with indent := around, outer }
    else state

def unwind (state : TokenStream) (column : Int) : TokenStream :=
  if state.inFlow then state else unwindFrom column state.outer state

/-- Opens a block at a column, if it is indented more than the innermost one. -/
def openBlock (state : TokenStream) (column : Nat) (number : Nat) (token : Token) : TokenStream :=
  if !state.inFlow && decide (state.indent < column) then
    { state with indent := column, outer := state.indent :: state.outer }.pushAt number token
  else state

/-! ### Possible keys -/

/-- Forgets the possible key at this level of brackets, which must not be a required one. -/
def dropKey (state : TokenStream) : Except Error TokenStream :=
  match state.keys.lookup state.depth with
  | none => .ok state
  | some key =>
    if key.required then .error .malformed
    else .ok { state with keys := state.keys.filter fun (level, _) ↦ level != state.depth }

/-- Remembers that a key may start here. -/
def saveKey (state : TokenStream) : Except Error TokenStream :=
  if state.keyAllowed then
    state.dropKey.map fun state ↦
      let cursor := state.cursor
      let key : KeyPlace :=
        { number := state.count
          required := !state.inFlow && decide (state.indent = cursor.column)
          index := cursor.index
          line := cursor.line
          column := cursor.column }
      { state with keys := (state.depth, key) :: state.keys }
  else .ok state

/-- Whether a possible key is too far back to be one. -/
def isStale (cursor : Cursor) (key : KeyPlace) : Bool :=
  key.line != cursor.line || maxKeyLength < cursor.index - key.index

/-- Forgets the possible keys that are too far back. -/
def dropStale (state : TokenStream) : Except Error TokenStream :=
  if state.keys.any fun (_, key) ↦ isStale state.cursor key && key.required then .error .malformed
  else .ok { state with keys := state.keys.filter fun (_, key) ↦ !isStale state.cursor key }

/-! ### Between tokens -/

/-- Passes over spaces, comments and line ends. After a line end outside of brackets a key may
start. -/
def skipGaps (state : TokenStream) : TokenStream :=
  let cursor := state.cursor.skipSpaces.skipComment
  match cursor.takeBreak? with
  | none => state.moveTo cursor
  | some (_, next) =>
    if next.rest.length < state.cursor.rest.length then
      { state with cursor := next, keyAllowed := state.keyAllowed || !state.inFlow }.skipGaps
    else state.moveTo cursor
termination_by state.cursor.rest.length

/-- Passes over a byte-order mark at the start of the text. -/
def skipByteOrderMark (state : TokenStream) : TokenStream :=
  if state.cursor.index = 0 && state.cursor.peek == some '\ufeff' then
    state.moveTo state.cursor.advance
  else state

/-! ### Single tokens -/

def takeDirective (state : TokenStream) : Except Error TokenStream := do
  let state ← (state.unwind (-1)).dropKey
  let (read, next) ← directive state.cursor
  pure ({ state with keyAllowed := false, cursor := next }.push (.directive read))

def takeDocumentMark (state : TokenStream) (token : Token) : Except Error TokenStream := do
  let state ← (state.unwind (-1)).dropKey
  pure ({ state with keyAllowed := false, cursor := state.cursor.advanceBy 3 }.push token)

def openFlow (state : TokenStream) (token : Token) : Except Error TokenStream := do
  let state ← state.saveKey
  pure ({ state with
    depth := state.depth + 1, keyAllowed := true, cursor := state.cursor.advance }.push token)

/-- A closing bracket; one that was never opened is an error. -/
def closeFlow (state : TokenStream) (token : Token) : Except Error TokenStream := do
  let state ← state.dropKey
  match state.depth with
  | 0 => .error .malformed
  | depth + 1 =>
    pure ({ state with depth, keyAllowed := false, cursor := state.cursor.advance }.push token)

def takeFlowEntry (state : TokenStream) : Except Error TokenStream := do
  let state ← { state with keyAllowed := true }.dropKey
  pure ((state.moveTo state.cursor.advance).push .flowEntry)

/-- Opens a block here, where a key must be allowed. -/
def openBlockHere (state : TokenStream) (token : Token) : Except Error TokenStream :=
  if state.inFlow then .ok state
  else if state.keyAllowed then
    .ok (state.openBlock state.cursor.column state.count token)
  else .error .malformed

def takeBlockEntry (state : TokenStream) : Except Error TokenStream := do
  let state ← state.openBlockHere .blockSequenceStart
  let state ← { state with keyAllowed := true }.dropKey
  pure ((state.moveTo state.cursor.advance).push .blockEntry)

def takeKey (state : TokenStream) : Except Error TokenStream := do
  let state ← state.openBlockHere .blockMappingStart
  let state ← { state with keyAllowed := !state.inFlow }.dropKey
  pure ((state.moveTo state.cursor.advance).push .key)

/-- A colon. It makes a key of what stood before it on this level, if that may be one. -/
def takeValue (state : TokenStream) : Except Error TokenStream := do
  let state ←
    match state.keys.lookup state.depth with
    | some key =>
      let keys := state.keys.filter fun (level, _) ↦ level != state.depth
      let marked := { state with keys, keyAllowed := false }.pushAt key.number .key
      pure (marked.openBlock key.column key.number .blockMappingStart)
    | none => do
      let state ← state.openBlockHere .blockMappingStart
      { state with keyAllowed := !state.inFlow }.dropKey
  pure ((state.moveTo state.cursor.advance).push .value)

/-- A token that may be a key by itself. -/
def takeNode (state : TokenStream) (read : Cursor → Except Error (Token × Cursor)) :
    Except Error TokenStream := do
  let state ← state.saveKey
  let (token, next) ← read state.cursor
  pure ({ state with keyAllowed := false, cursor := next }.push token)

def takePlain (state : TokenStream) : Except Error TokenStream := do
  let state ← state.saveKey
  let scalar := plainScalar state.inFlow (state.indent + 1) state.cursor
  pure ({ state with keyAllowed := scalar.crossed, cursor := scalar.cursor }.push
    (.scalar scalar.text true))

def takeBlockScalar (state : TokenStream) (folded : Bool) : Except Error TokenStream := do
  let state ← { state with keyAllowed := true }.dropKey
  let (text, next) ← blockScalar folded state.indent state.cursor
  pure ((state.moveTo next).push (.scalar text false))

/-! ### The whole text -/

/-- Whether a plain scalar may start with these two characters. -/
def startsPlain (inFlow : Bool) (char : Char) (next : Option Char) : Bool :=
  !(endsWord (some char) || "-?:,[]\x7b\x7d#&*!|>'\"%@`".toList.contains char)
    || (!endsWord next && (char == '-' || (!inFlow && (char == '?' || char == ':'))))

/-- Whether the cursor is at this document mark. -/
def atMark (cursor : Cursor) (mark : Char) : Bool :=
  cursor.column == 0 && cursor.peek == some mark && cursor.atDocumentMark

/-- The next token, which starts with the given character. -/
def takeToken (state : TokenStream) (char : Char) : Except Error TokenStream :=
  let cursor := state.cursor
  let next := cursor.peekAt 1
  let stands := endsWord next
  if char == '%' && cursor.column == 0 then state.takeDirective
  else if atMark cursor '-' && char == '-' then state.takeDocumentMark .documentStart
  else if atMark cursor '.' && char == '.' then state.takeDocumentMark .documentEnd
  else if char == '[' then state.openFlow .flowSequenceStart
  else if char == '{' then state.openFlow .flowMappingStart
  else if char == ']' then state.closeFlow .flowSequenceEnd
  else if char == '}' then state.closeFlow .flowMappingEnd
  else if char == ',' then state.takeFlowEntry
  else if char == '-' && stands then state.takeBlockEntry
  else if char == '?' && (state.inFlow || stands) then state.takeKey
  else if char == ':' && (state.inFlow || stands) then state.takeValue
  else if char == '*' then
    state.takeNode fun cursor ↦ (anchorName cursor).map fun (name, next) ↦ (.alias name, next)
  else if char == '&' then
    state.takeNode fun cursor ↦ (anchorName cursor).map fun (name, next) ↦ (.anchor name, next)
  else if char == '!' then
    state.takeNode fun cursor ↦ (tagName cursor).map fun (name, next) ↦ (.tag name, next)
  else if char == '|' && !state.inFlow then state.takeBlockScalar false
  else if char == '>' && !state.inFlow then state.takeBlockScalar true
  else if char == '\'' || char == '"' then
    state.takeNode fun cursor ↦
      (quotedScalar (char == '"') cursor).map fun (text, next) ↦ (.scalar text false, next)
  else if startsPlain state.inFlow char next then state.takePlain
  else .error .malformed

/-- One step: the next token, or at the end of the text the ends of the open blocks. -/
def step (state : TokenStream) : Except Error (TokenStream × Bool) := do
  let state ← state.skipByteOrderMark.skipGaps.dropStale
  let state := state.unwind state.cursor.column
  match state.cursor.peek with
  | none => pure (← (state.unwind (-1)).dropKey, true)
  | some char => pure (← state.takeToken char, false)

/-- The tokens so far that nothing later can change: those before the first possible key. -/
def settled (state : TokenStream) : List Token :=
  let waiting := state.keys.filter fun (_, key) ↦ !isStale state.cursor key
  let count := (waiting.map fun (_, key) ↦ key.number).foldl min state.count
  state.tokens.reverse.take count

end TokenStream

/-- The tokens of a text. If it cannot be read to its end, those before the fault, and the fault. -/
structure TokenList where
  tokens : List Token
  fault : Option Error
  deriving DecidableEq, Repr

/-- The tokens of the rest of the text after those so far. -/
def TokenStream.finish : Nat → TokenStream → TokenList
  | 0, state => ⟨state.settled, some .malformed⟩
  | fuel + 1, state =>
    match state.step with
    | .error error => ⟨state.settled, some error⟩
    | .ok (next, true) => ⟨next.tokens.reverse, none⟩
    | .ok (next, false) => next.finish fuel

/-- The tokens of a text. -/
def TokenList.ofText (text : List Char) : TokenList :=
  (TokenStream.start text).finish (text.length + 2)

end ScoreRepeats.Yaml
