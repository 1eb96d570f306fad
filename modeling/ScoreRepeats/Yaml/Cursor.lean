import ScoreRepeats.Yaml.Error

/-!
# Cursors

A place in a YAML text: what follows, how many characters came before, and the line and column. Line
feeds, next-line characters and the two separators of lines and paragraphs end a line.
-/

set_option autoImplicit false
set_option relaxedAutoImplicit false

namespace ScoreRepeats.Yaml

/-- A character that ends a line. -/
def isBreak (char : Char) : Bool :=
  char == '\n' || char == '\u0085' || char == '\u2028' || char == '\u2029'

/-- A place in a text. -/
structure Cursor where
  rest : List Char
  index : Nat
  line : Nat
  column : Nat
  deriving DecidableEq, Repr

/-- Whether a word ends before this character: a blank, a line end or the end of the text. -/
def endsWord : Option Char → Bool
  | none => true
  | some char => char == ' ' || char == '\t' || isBreak char

/-- As `endsWord`, but a tab ends nothing. -/
def endsField : Option Char → Bool
  | none => true
  | some char => char == ' ' || isBreak char

/-- Whether a line ends before this character. -/
def endsLine : Option Char → Bool
  | none => true
  | some char => isBreak char

namespace Cursor

def start (text : List Char) : Cursor := ⟨text, 0, 0, 0⟩

/-- The next character. -/
def peek (cursor : Cursor) : Option Char := cursor.rest.head?

/-- The character after so many others. -/
def peekAt (cursor : Cursor) (distance : Nat) : Option Char := cursor.rest[distance]?

/-- One character on. A byte-order mark takes no column. -/
def advance (cursor : Cursor) : Cursor :=
  match cursor.rest with
  | [] => cursor
  | char :: rest =>
    if isBreak char then ⟨rest, cursor.index + 1, cursor.line + 1, 0⟩
    else if char == '\ufeff' then { cursor with rest, index := cursor.index + 1 }
    else { cursor with rest, index := cursor.index + 1, column := cursor.column + 1 }

/-- So many characters on. -/
def advanceBy (cursor : Cursor) : Nat → Cursor
  | 0 => cursor
  | count + 1 => cursor.advance.advanceBy count

/-- The characters up to the first that fails a test, and the place of that one. -/
def span (cursor : Cursor) (test : Char → Bool) : List Char × Cursor :=
  let taken := cursor.rest.takeWhile test
  (taken, cursor.advanceBy taken.length)

/-- The place after all characters that pass a test. -/
def skipWhile (cursor : Cursor) (test : Char → Bool) : Cursor := (cursor.span test).2

def skipSpaces (cursor : Cursor) : Cursor := cursor.skipWhile (· == ' ')

/-- The place after a comment, if one starts here. -/
def skipComment (cursor : Cursor) : Cursor :=
  if cursor.peek == some '#' then cursor.skipWhile fun char ↦ !isBreak char else cursor

/-- A line end and the place after it. Line feed and next line are both read as a line feed. -/
def takeBreak? (cursor : Cursor) : Option (Char × Cursor) :=
  match cursor.peek with
  | none => none
  | some char =>
    if isBreak char then
      some (if char == '\u0085' then '\n' else char, cursor.advance)
    else none

/-- Whether three hyphens or three points and then no word character stand here. -/
def atDocumentMark (cursor : Cursor) : Bool :=
  let mark := cursor.rest.take 3
  (mark == ['-', '-', '-'] || mark == ['.', '.', '.']) && endsWord (cursor.peekAt 3)

/-- The place after the rest of a line that may hold only spaces and a comment. -/
def finishLine (cursor : Cursor) : Except Error Cursor :=
  let ended := cursor.skipSpaces.skipComment
  if endsLine ended.peek then .ok ended.advance else .error .malformed

end Cursor

end ScoreRepeats.Yaml
