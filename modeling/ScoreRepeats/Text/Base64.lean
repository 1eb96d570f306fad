/-!
# Bytes written in base 64

Four letters of an alphabet of sixty-four stand for three bytes. Characters outside the alphabet are
passed over. The text may end within a group of four if as many equals signs follow as letters are
missing, at most two; what comes after these does not count.
-/

set_option autoImplicit false
set_option relaxedAutoImplicit false

namespace ScoreRepeats.Text

/-- The value of a letter of the alphabet. -/
def sextet? (char : Char) : Option Nat :=
  if 'A' ≤ char && char ≤ 'Z' then some (char.toNat - 'A'.toNat)
  else if 'a' ≤ char && char ≤ 'z' then some (char.toNat - 'a'.toNat + 26)
  else if '0' ≤ char && char ≤ '9' then some (char.toNat - '0'.toNat + 52)
  else if char = '+' then some 62
  else if char = '/' then some 63
  else none

/-- The byte that a letter completes; the first letter of a group completes none. `earlier` is the
value of the letter before it. -/
def completedByte (place earlier value : Nat) : List UInt8 :=
  match place with
  | 0 => []
  | 1 => [(earlier * 4 + value / 16).toUInt8]
  | 2 => [(earlier % 16 * 16 + value / 4).toUInt8]
  | _ => [(earlier % 4 * 64 + value).toUInt8]

/-- The bytes of a text from a place in a group of four on. `signs` is the number of equals signs
just before. -/
def decodeGroups (place earlier signs : Nat) : List Char → Option (List UInt8)
  | [] => if place = 0 then some [] else none
  | char :: rest =>
    if char = '=' then
      if place < 2 then decodeGroups place earlier signs rest
      else if 4 ≤ place + signs + 1 then some []
      else decodeGroups place earlier (signs + 1) rest
    else
      match sextet? char with
      | none => decodeGroups place earlier signs rest
      | some value =>
        (decodeGroups ((place + 1) % 4) value 0 rest).map (completedByte place earlier value ++ ·)

/-- The bytes that a text in base 64 stands for. -/
def decodeBase64 (text : List Char) : Option (List UInt8) := decodeGroups 0 0 0 text

end ScoreRepeats.Text
