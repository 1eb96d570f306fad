/-!
# Halves of characters

A character beyond U+FFFF has two names: its code, and a pair of codes neither of which names a
character alone. A text may hold half of such a pair. It is written as a mark and a character that
tells the code; the mark itself, which is no character in use, is written twice (`ofCode`). `codes`
gives the codes that a text stands for.
-/

set_option autoImplicit false
set_option relaxedAutoImplicit false

namespace ScoreRepeats.Text

/-- The mark before the character that stands for a half. -/
def halfMark : Char := '\uffff'

/-- The first code of a half. -/
def firstHalf : Nat := 0xd800

/-- The first code after those of halves. -/
def pastHalves : Nat := 0xe000

def isHalf (code : Nat) : Bool := firstHalf ≤ code && code < pastHalves

/-- The distance from the code of a half to the character that tells it. -/
def halfShift : Nat := pastHalves - firstHalf

/-- A character or a half by its code, as a piece of text. -/
def ofCode (code : Nat) : List Char :=
  if isHalf code then [halfMark, Char.ofNat (code + halfShift)]
  else if code = halfMark.toNat then [halfMark, halfMark]
  else [Char.ofNat code]

/-- The code that a character tells after the mark. -/
def codeAfterMark (char : Char) : Nat :=
  if char = halfMark then halfMark.toNat else char.toNat - halfShift

/-- The codes of the characters and halves of a text. -/
def codes : List Char → List Nat
  | [] => []
  | [char] => [char.toNat]
  | first :: second :: rest =>
    if first = halfMark then codeAfterMark second :: codes rest
    else first.toNat :: codes (second :: rest)

/-- Whether one text stands before another in the order of their codes. -/
def precedes (first second : List Char) : Bool :=
  (codes first).lex (codes second) fun code other ↦ decide (code < other)

end ScoreRepeats.Text
