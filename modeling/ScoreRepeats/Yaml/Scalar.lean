import ScoreRepeats.Yaml.Cursor

/-!
# Scalars in YAML texts

The text of a scalar in each of its styles: plain, between single or double quotes, and as a block
whose line ends are kept or folded. Inside plain and quoted scalars a single line end is read as a
space and further ones are kept.
-/

set_option autoImplicit false
set_option relaxedAutoImplicit false

namespace ScoreRepeats.Yaml

/-! ### Plain scalars -/

/-- The indicators that end a plain scalar inside flow brackets. -/
def isFlowIndicator (char : Char) : Bool :=
  char == ',' || char == '[' || char == ']' || char == '{' || char == '}'

/-- Whether a colon before this character separates a key from its value. -/
def separatesKey (inFlow : Bool) (next : Option Char) : Bool :=
  endsWord next || (inFlow && next.any isFlowIndicator)

/-- The number of characters up to the end of a plain word. -/
def plainLength (inFlow : Bool) : List Char → Nat
  | [] => 0
  | char :: rest =>
    if endsWord (some char) || (char == ':' && separatesKey inFlow rest.head?)
        || (inFlow && (char == '?' || isFlowIndicator char)) then 0
    else plainLength inFlow rest + 1

/-- White space inside a scalar: what it is read as, and whether it held a line end. -/
structure Gap where
  text : List Char
  crossed : Bool
  cursor : Cursor
  deriving DecidableEq, Repr

/-- What the line ends of a gap are read as. -/
def foldBreaks (first : Char) (others : List Char) : List Char :=
  if first != '\n' then first :: others else if others.isEmpty then [' '] else others

/-- The line ends, up to a document mark, among spaces. -/
def plainBreaks : Nat → Cursor → List Char → Option (List Char) × Cursor
  | 0, cursor, breaks => (some breaks.reverse, cursor)
  | fuel + 1, cursor, breaks =>
    let cursor := cursor.skipSpaces
    match cursor.takeBreak? with
    | none => (some breaks.reverse, cursor)
    | some (char, next) =>
      if next.atDocumentMark then (none, next) else plainBreaks fuel next (char :: breaks)

/-- The gap after a word of a plain scalar. Nothing is left of one before a document mark. -/
def plainGap (cursor : Cursor) : Gap :=
  let (spaces, after) := cursor.span (· == ' ')
  match after.takeBreak? with
  | none => ⟨spaces, false, after⟩
  | some (first, next) =>
    if next.atDocumentMark then ⟨[], true, next⟩
    else match plainBreaks next.rest.length next [] with
      | (none, ended) => ⟨[], true, ended⟩
      | (some others, ended) => ⟨foldBreaks first others, true, ended⟩

/-- A plain scalar with the place after it; `crossed` says whether a line end came last. -/
structure PlainScalar where
  text : List Char
  crossed : Bool
  cursor : Cursor
  deriving DecidableEq, Repr

/-- The words of a plain scalar with the gaps between them. Outside of flow brackets a further line
has to be indented by at least `indent`. -/
def plainWords (inFlow : Bool) (indent : Int) : Nat → PlainScalar → List Char → PlainScalar
  | 0, done, _ => done
  | fuel + 1, done, gap =>
    let length := plainLength inFlow done.cursor.rest
    if done.cursor.peek == some '#' || length == 0 then done
    else
      let word := done.cursor.rest.take length
      let next := plainGap (done.cursor.advanceBy length)
      let further := ⟨done.text ++ gap ++ word, next.crossed, next.cursor⟩
      if next.text.isEmpty || next.cursor.peek == some '#'
          || (!inFlow && decide ((next.cursor.column : Int) < indent)) then further
      else plainWords inFlow indent fuel further next.text

/-- The plain scalar that starts here. -/
def plainScalar (inFlow : Bool) (indent : Int) (cursor : Cursor) : PlainScalar :=
  plainWords inFlow indent (cursor.rest.length + 1) ⟨[], false, cursor⟩ []

/-! ### Quoted scalars -/

/-- The line ends that follow each other among blanks inside quotes. -/
def quotedBreaks : Nat → Cursor → List Char → Except Error (List Char × Cursor)
  | 0, cursor, breaks => .ok (breaks.reverse, cursor)
  | fuel + 1, cursor, breaks =>
    if cursor.atDocumentMark then .error .malformed
    else
      let cursor := cursor.skipWhile fun char ↦ char == ' ' || char == '\t'
      match cursor.takeBreak? with
      | none => .ok (breaks.reverse, cursor)
      | some (char, next) => quotedBreaks fuel next (char :: breaks)

/-- The gap between words inside quotes. -/
def quotedGap (cursor : Cursor) : Except Error (List Char × Cursor) :=
  let (blanks, after) := cursor.span fun char ↦ char == ' ' || char == '\t'
  match after.peek, after.takeBreak? with
  | none, _ => .error .malformed
  | some _, none => .ok (blanks, after)
  | some _, some (first, next) => do
    let (others, ended) ← quotedBreaks (next.rest.length + 1) next []
    pure (foldBreaks first others, ended)

/-- The characters that have an escape of one letter. -/
def letterEscapes : List (Char × Char) :=
  [('0', '\x00'), ('a', '\x07'), ('b', '\x08'), ('t', '\t'), ('\t', '\t'), ('n', '\n'),
    ('v', '\x0b'), ('f', '\x0c'), ('r', '\r'), ('e', '\x1b'), (' ', ' '), ('"', '"'),
    ('\\', '\\'), ('/', '/'), ('N', '\u0085'), ('_', '\u00a0'), ('L', '\u2028'), ('P', '\u2029')]

/-- The number of hexadecimal digits after the letter of an escape. -/
def escapeDigits : List (Char × Nat) := [('x', 2), ('u', 4), ('U', 8)]

/-- The value of a hexadecimal digit. -/
def hexValue? (char : Char) : Option Nat :=
  if char.isDigit then some (char.toNat - '0'.toNat)
  else if 'a' ≤ char && char ≤ 'f' then some (char.toNat - 'a'.toNat + 10)
  else if 'A' ≤ char && char ≤ 'F' then some (char.toNat - 'A'.toNat + 10)
  else none

/-- The number that so many hexadecimal digits denote. -/
def hexCode? (text : List Char) (digits : Nat) : Option Nat :=
  let code := text.take digits
  if code.length = digits then
    (code.mapM hexValue?).map fun values ↦ values.foldl (fun code value ↦ 16 * code + value) 0
  else none

/-- The character or half of a character of an escape by its code, and the place after it. -/
def codeEscape (cursor : Cursor) (digits : Nat) : Except Error (List Char × Cursor) :=
  match hexCode? cursor.rest digits with
  | none => .error .malformed
  | some code =>
    if 0x10ffff < code then .error .noCharacter else .ok (Text.ofCode code, cursor.advanceBy digits)

/-- What an escape stands for; the cursor is after the backslash. -/
def escape (cursor : Cursor) : Except Error (List Char × Cursor) :=
  match cursor.peek with
  | none => .error .malformed
  | some char =>
    match letterEscapes.lookup char, escapeDigits.lookup char with
    | some meant, _ => .ok ([meant], cursor.advance)
    | none, some digits => codeEscape cursor.advance digits
    | none, none =>
      match cursor.takeBreak? with
      | none => .error .malformed
      | some (_, next) => quotedBreaks (next.rest.length + 1) next []

/-- The rest of a quoted scalar and the place after its closing quote. The text so far is given
latest first. -/
def quotedText (double : Bool) : Nat → Cursor → List Char → Except Error (List Char × Cursor)
  | 0, _, _ => .error .malformed
  | fuel + 1, cursor, done =>
    match cursor.peek with
    | none => .error .malformed
    | some char =>
      if char == '\'' && !double then
        if cursor.peekAt 1 == some '\'' then quotedText double fuel (cursor.advanceBy 2) ('\'' :: done)
        else .ok (done.reverse, cursor.advance)
      else if char == '"' && double then .ok (done.reverse, cursor.advance)
      else if char == '\\' && double then
        match escape cursor.advance with
        | .error error => .error error
        | .ok (meant, next) => quotedText double fuel next (meant.reverse ++ done)
      else if endsWord (some char) then
        match quotedGap cursor with
        | .error error => .error error
        | .ok (gap, next) => quotedText double fuel next (gap.reverse ++ done)
      else quotedText double fuel cursor.advance (char :: done)

/-- The quoted scalar that starts here. -/
def quotedScalar (double : Bool) (cursor : Cursor) : Except Error (List Char × Cursor) :=
  quotedText double (cursor.rest.length + 1) cursor.advance []

/-! ### Block scalars -/

/-- What becomes of the line ends after a block: one is kept, all are, or none. -/
inductive Chomping
  | clip | keep | strip
  deriving DecidableEq, Repr

/-- The chomping that a sign asks for. -/
def chompingOf? : Option Char → Option Chomping
  | some '+' => some .keep
  | some '-' => some .strip
  | _ => none

/-- The indentation that a digit asks for. -/
def indentationOf? (char : Option Char) : Option Nat :=
  match char with
  | some char => if char.isDigit then some (char.toNat - '0'.toNat) else none
  | none => none

/-- The header of a block after its indicator: a sign and a digit in any order. -/
def blockHeader (cursor : Cursor) : Except Error (Chomping × Option Nat × Cursor) :=
  let (chomping, increment, after) :=
    match chompingOf? cursor.peek with
    | some chomping =>
      match indentationOf? cursor.advance.peek with
      | some increment => (chomping, some increment, cursor.advanceBy 2)
      | none => (chomping, none, cursor.advance)
    | none =>
      match indentationOf? cursor.peek with
      | some increment =>
        match chompingOf? cursor.advance.peek with
        | some chomping => (chomping, some increment, cursor.advanceBy 2)
        | none => (.clip, some increment, cursor.advance)
      | none => (.clip, none, cursor)
  if increment = some 0 || !endsField after.peek then .error .malformed
  else after.finishLine.map fun next ↦ (chomping, increment, next)

/-- The line ends before the first line of a block, and the greatest column among the spaces. -/
def blockIndentation : Nat → Cursor → List Char → Nat → List Char × Nat × Cursor
  | 0, cursor, breaks, column => (breaks.reverse, column, cursor)
  | fuel + 1, cursor, breaks, column =>
    let cursor := cursor.skipSpaces
    let column := max column cursor.column
    match cursor.takeBreak? with
    | none => (breaks.reverse, column, cursor)
    | some (char, next) => blockIndentation fuel next (char :: breaks) column

/-- The place after the spaces of an indentation. -/
def skipIndentation (indent : Nat) (cursor : Cursor) : Cursor :=
  cursor.advanceBy ((cursor.rest.take (indent - cursor.column)).takeWhile (· == ' ')).length

/-- The line ends between two lines of a block. -/
def blockBreaks (indent : Nat) : Nat → Cursor → List Char → List Char × Cursor
  | 0, cursor, breaks => (breaks.reverse, cursor)
  | fuel + 1, cursor, breaks =>
    let cursor := skipIndentation indent cursor
    match cursor.takeBreak? with
    | none => (breaks.reverse, cursor)
    | some (char, next) => blockBreaks indent fuel next (char :: breaks)

/-- Whether a line of the block starts here. -/
def atBlockLine (indent : Nat) (cursor : Cursor) : Bool :=
  cursor.column == indent && cursor.peek.isSome

/-- A line that is folded into its neighbours: it does not begin with a blank. -/
def startsWord (char : Option Char) : Bool := !(char == some ' ' || char == some '\t')

/-- The lines of a block, each after the line ends before it. -/
def blockLines (folded : Bool) (chomping : Chomping) (indent : Nat) :
    Nat → Cursor → List Char → List Char → List Char × Cursor
  | 0, cursor, done, _ => (done, cursor)
  | fuel + 1, cursor, done, breaks =>
    if atBlockLine indent cursor then
      let leading := startsWord cursor.peek
      let (line, ended) := cursor.span fun char ↦ !isBreak char
      let (lineBreak, next) := match ended.takeBreak? with
        | none => ([], ended)
        | some (char, next) => ([char], next)
      let (further, next) := blockBreaks indent (next.rest.length + 1) next []
      let text := done ++ breaks ++ line
      if atBlockLine indent next then
        let joint :=
          if folded && lineBreak == ['\n'] && leading && startsWord next.peek then
            if further.isEmpty then [' '] else []
          else lineBreak
        blockLines folded chomping indent fuel next (text ++ joint) further
      else
        match chomping with
        | .clip => (text ++ lineBreak, next)
        | .keep => (text ++ lineBreak ++ further, next)
        | .strip => (text, next)
    else
      (if chomping = .keep then done ++ breaks else done, cursor)

/-- The block scalar whose indicator stands here, inside a block with this indentation. -/
def blockScalar (folded : Bool) (outer : Int) (cursor : Cursor) :
    Except Error (List Char × Cursor) := do
  let (chomping, increment, body) ← blockHeader cursor.advance
  let least := max (outer + 1).toNat 1
  let fuel := body.rest.length + 1
  pure <| match increment with
    | none =>
      let (breaks, column, next) := blockIndentation fuel body [] 0
      blockLines folded chomping (max least column) fuel next [] breaks
    | some increment =>
      let indent := least + increment - 1
      let (breaks, next) := blockBreaks indent fuel body []
      blockLines folded chomping indent fuel next [] breaks

end ScoreRepeats.Yaml
