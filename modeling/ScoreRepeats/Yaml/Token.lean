/-!
# Tokens of YAML texts

The indicators of a YAML text, the scalars between them, and the starts and ends of the blocks that
indentation forms.
-/

set_option autoImplicit false
set_option relaxedAutoImplicit false

namespace ScoreRepeats.Yaml

/-- A tag as it is written: a handle that stands for the start of the name, and the rest of it. -/
structure TagName where
  handle : Option (List Char)
  suffix : List Char
  deriving DecidableEq, Repr

inductive Directive
  | version (major : Nat)
  | tagHandle (handle : List Char) (start : List Char)
  | unknown
  deriving DecidableEq, Repr

inductive Token
  | directive (directive : Directive)
  | documentStart
  | documentEnd
  | blockSequenceStart
  | blockMappingStart
  | blockEnd
  | flowSequenceStart
  | flowSequenceEnd
  | flowMappingStart
  | flowMappingEnd
  | flowEntry
  | blockEntry
  | key
  | value
  | alias (name : List Char)
  | anchor (name : List Char)
  | tag (name : TagName)
  /-- The text of a scalar, and whether it stood there without quotes or indicators. -/
  | scalar (text : List Char) (plain : Bool)
  deriving DecidableEq, Repr

end ScoreRepeats.Yaml
