import ScoreRepeats.Yaml.Scalar
import ScoreRepeats.Yaml.Token

/-!
# Names in YAML texts

Anchors and aliases, tags, and the directives in front of a document.
-/

set_option autoImplicit false
set_option relaxedAutoImplicit false

namespace ScoreRepeats.Yaml

/-- A character of a name. -/
def isNameChar (char : Char) : Bool := char.isAlphanum || char == '-' || char == '_'

/-- A character that may follow the name of an anchor directly. -/
def followsAnchor (char : Char) : Bool := "?:,]\x7d%@`".toList.contains char

/-- The name of an anchor or alias, whose indicator stands here. -/
def anchorName (cursor : Cursor) : Except Error (List Char × Cursor) :=
  let (name, next) := cursor.advance.span isNameChar
  if name.isEmpty || !(endsWord next.peek || next.peek.any followsAnchor) then .error .malformed
  else .ok (name, next)

/-! ### Tags -/

/-- A character of a tag that stands for itself, or the sign that starts an escape. -/
def isTagChar (char : Char) : Bool :=
  char.isAlphanum || "-;/?:@&=+$,_.!~*'()[]%".toList.contains char

/-- The bytes that a row of percent escapes stands for. -/
def percentBytes : Nat → Cursor → List UInt8 → Except Error (List UInt8 × Cursor)
  | 0, _, _ => .error .malformed
  | fuel + 1, cursor, bytes =>
    if cursor.peek == some '%' then
      match hexCode? cursor.advance.rest 2 with
      | none => .error .malformed
      | some code => percentBytes fuel (cursor.advanceBy 3) (code.toUInt8 :: bytes)
    else .ok (bytes.reverse, cursor)

/-- The rest of a tag. -/
def tagText : Nat → Cursor → List Char → Except Error (List Char × Cursor)
  | 0, _, _ => .error .malformed
  | fuel + 1, cursor, done =>
    match cursor.peek with
    | some '%' => do
      let (bytes, next) ← percentBytes (cursor.rest.length + 1) cursor []
      match String.fromUTF8? (ByteArray.mk bytes.toArray) with
      | none => .error .malformed
      | some text => tagText fuel next (done ++ text.toList)
    | some char =>
      if isTagChar char then tagText fuel cursor.advance (done ++ [char])
      else if done.isEmpty then .error .malformed
      else .ok (done, cursor)
    | none => if done.isEmpty then .error .malformed else .ok (done, cursor)

def tagUri (cursor : Cursor) : Except Error (List Char × Cursor) :=
  tagText (cursor.rest.length + 1) cursor []

/-- The handle of a tag: an exclamation mark, or a name between two. -/
def tagHandle (cursor : Cursor) : Except Error (List Char × Cursor) :=
  if cursor.peek != some '!' then .error .malformed
  else if cursor.peekAt 1 == some ' ' then .ok (['!'], cursor.advance)
  else
    let (name, next) := cursor.advance.span isNameChar
    if next.peek == some '!' then .ok ('!' :: name ++ ['!'], next.advance) else .error .malformed

/-- Whether a tag names a handle, that is, has a second exclamation mark. -/
def namesHandle (text : List Char) : Bool :=
  (text.takeWhile fun char ↦ !endsField (some char)).contains '!'

/-- The tag whose exclamation mark stands here. -/
def tagName (cursor : Cursor) : Except Error (TagName × Cursor) := do
  let (name, next) ←
    match cursor.peekAt 1 with
    | some '<' => do
      let (suffix, next) ← tagUri (cursor.advanceBy 2)
      if next.peek == some '>' then pure (⟨none, suffix⟩, next.advance) else .error .malformed
    | following =>
      if endsWord following then pure (⟨none, ['!']⟩, cursor.advance)
      else if namesHandle (cursor.rest.drop 1) then do
        let (handle, after) ← tagHandle cursor
        let (suffix, next) ← tagUri after
        pure (⟨some handle, suffix⟩, next)
      else do
        let (suffix, next) ← tagUri cursor.advance
        pure (⟨some ['!'], suffix⟩, next)
  if endsField next.peek then pure (name, next) else .error .malformed

/-! ### Directives -/

/-- A number of digits. -/
def versionNumber (cursor : Cursor) : Except Error (Nat × Cursor) :=
  let (digits, next) := cursor.span Char.isDigit
  if digits.isEmpty then .error .malformed else .ok (Numeral.valueOf digits, next)

/-- The directive whose percent sign stands here, up to the end of its line. -/
def directive (cursor : Cursor) : Except Error (Directive × Cursor) := do
  let (name, after) := cursor.advance.span isNameChar
  if name.isEmpty || !endsField after.peek then .error .malformed
  else
    let (read, next) ←
      if name = "YAML".toList then do
        let (major, next) ← versionNumber after.skipSpaces
        if next.peek != some '.' then .error .malformed
        else
          let (_, next) ← versionNumber next.advance
          if endsField next.peek then pure (Directive.version major, next) else .error .malformed
      else if name = "TAG".toList then do
        let (handle, next) ← tagHandle after.skipSpaces
        if next.peek != some ' ' then .error .malformed
        else
          let (start, next) ← tagUri next.skipSpaces
          if endsField next.peek then pure (Directive.tagHandle handle start, next)
          else .error .malformed
      else pure (Directive.unknown, after.skipWhile fun char ↦ !isBreak char)
    pure (read, ← next.finishLine)

end ScoreRepeats.Yaml
