import ScoreRepeats.Yaml.Tag

/-!
# Graphs of YAML documents

A document as its nodes by number. A collection holds the numbers of its parts, so that a node may
have several places, even inside itself.
-/

set_option autoImplicit false
set_option relaxedAutoImplicit false

namespace ScoreRepeats.Yaml

/-- What a node is made of. -/
inductive Content
  | scalar (text : List Char)
  | sequence (items : List Nat)
  | mapping (entries : List (Nat × Nat))
  deriving DecidableEq, Repr

structure Node where
  tag : Tag
  content : Content
  deriving DecidableEq, Repr

namespace Node

/-- A scalar without a character and without a tag. -/
def absent : Node := ⟨.ofPlain [], .scalar []⟩

end Node

/-- The nodes of a document, the number of the outermost one, and whether some collection holds
itself. -/
structure Graph where
  nodes : Array Node
  root : Nat
  cyclic : Bool
  deriving DecidableEq, Repr

end ScoreRepeats.Yaml
