import ScoreRepeats.Yaml.Timestamp
import ScoreRepeats.Text.Blank

/-!
# Tags of YAML nodes

The types that the nodes of a document can have. A plain scalar without a tag has the type that its
text suggests (`Tag.ofPlain`): truth values and nothing by name, whole numbers in base two, eight,
ten, sixteen and sixty, decimals with a point, time stamps, and the two special keys. Every other
scalar is a text.
-/

set_option autoImplicit false
set_option relaxedAutoImplicit false

namespace ScoreRepeats.Yaml

/-- The type of a node. -/
inductive Tag
  | null | bool | int | float | text | bytes | timestamp | sequence | mapping | set
  /-- A list of pairs. -/
  | pairs
  /-- The key under which other mappings are merged in. -/
  | merge
  /-- The key that stands for the mapping itself. -/
  | self
  /-- A type that has no values here. -/
  | unknown
  deriving DecidableEq, Repr

namespace Tag

/-- The start of the names of the standard types. -/
def standard : String := "tag:yaml.org,2002:"

/-- The type with a full name. -/
def ofName (name : List Char) : Tag :=
  let named := [("null", null), ("bool", bool), ("int", int), ("float", float), ("str", text),
    ("binary", bytes), ("timestamp", timestamp), ("seq", sequence), ("omap", pairs),
    ("pairs", pairs), ("map", mapping), ("set", set), ("merge", merge), ("value", self)]
  let start := standard.toList
  if name.take start.length = start then
    (named.lookup (String.ofList (name.drop start.length))).getD unknown
  else unknown

/-! ### The types of plain scalars -/

/-- A word in lower case, with a capital, or in capitals. -/
def isWord (words : List String) (chars : List Char) : Bool :=
  words.any fun word ↦
    let lower := word.toList
    let capital := (lower.take 1).map Char.toUpper ++ lower.drop 1
    [lower, capital, lower.map Char.toUpper].contains chars

def isBool (chars : List Char) : Bool :=
  isWord ["yes", "no", "true", "false", "on", "off"] chars

def isNull (chars : List Char) : Bool := chars.isEmpty || chars == ['~'] || isWord ["null"] chars

/-- What follows a sign, if there is one. -/
def unsigned : List Char → List Char
  | '+' :: rest | '-' :: rest => rest
  | chars => chars

/-- A digit, or an underscore between digits. -/
def isDigitOrLine (char : Char) : Bool := char.isDigit || char == '_'

/-- A digit, and then digits and underscores. -/
def isDigitsWithLines : List Char → Bool
  | [] => false
  | first :: rest => first.isDigit && rest.all isDigitOrLine

/-- A place of a number in base sixty after the first one. -/
def isSexagesimalPlace : List Char → Bool
  | [digit] => digit.isDigit
  | [ten, digit] => '0' ≤ ten && ten ≤ '5' && digit.isDigit
  | _ => false

/-- The parts of a text between colons. -/
def places (chars : List Char) : List (List Char) := Text.splitAt ':' chars

/-- Places of a number in base sixty, at least two. -/
def isSexagesimal (chars : List Char) : Bool :=
  match places chars with
  | first :: second :: rest => isDigitsWithLines first && (second :: rest).all isSexagesimalPlace
  | _ => false

def isInt (chars : List Char) : Bool :=
  match unsigned chars with
  | '0' :: 'b' :: rest => !rest.isEmpty && rest.all fun char ↦ char == '0' || char == '1' || char == '_'
  | '0' :: 'x' :: rest => !rest.isEmpty && rest.all fun char ↦
      isDigitOrLine char || ('a' ≤ char && char ≤ 'f') || ('A' ≤ char && char ≤ 'F')
  | '0' :: rest => rest.all fun char ↦ char == '_' || ('0' ≤ char && char ≤ '7')
  | chars => isDigitsWithLines chars || isSexagesimal chars

/-- Nothing, or an exponent with its sign. -/
def isExponent : List Char → Bool
  | [] => true
  | mark :: sign :: digits =>
    (mark == 'e' || mark == 'E') && (sign == '+' || sign == '-') && !digits.isEmpty
      && digits.all Char.isDigit
  | _ => false

/-- What may follow the point of a decimal. -/
def isFraction (chars : List Char) : Bool := isExponent (chars.dropWhile isDigitOrLine)

def isFloat (chars : List Char) : Bool :=
  let plain := unsigned chars
  let whole := plain.takeWhile (· != '.')
  match plain.dropWhile (· != '.') with
  | [] => false
  | _ :: fraction =>
    if whole.isEmpty then
      isWord ["inf"] fraction || (plain == chars &&
        (chars == ".nan".toList || chars == ".NaN".toList || chars == ".NAN".toList
          || (fraction.head?.any Char.isDigit && isFraction fraction)))
    else (isDigitsWithLines whole && isFraction fraction)
      || (isSexagesimal whole && fraction.all isDigitOrLine)

/-- Whether a text is a time stamp that needs no tag. -/
def isTimestamp (chars : List Char) : Bool := (Timestamp.read? chars).any Timestamp.isPlain

/-- A text without the line feed at its end, unless it is nothing else. -/
def withoutLineFeed (chars : List Char) : List Char :=
  if 1 < chars.length ∧ chars.getLast? = some '\n' then chars.dropLast else chars

/-- The type of a plain scalar. A line feed at its end does not count. -/
def ofPlain (text : List Char) : Tag :=
  let chars := withoutLineFeed text
  if isBool chars then bool
  else if isFloat chars then float
  else if isInt chars then int
  else if chars == ['<', '<'] then merge
  else if isNull chars then null
  else if isTimestamp chars then timestamp
  else if chars == ['='] then self
  else Tag.text

end Tag

end ScoreRepeats.Yaml
