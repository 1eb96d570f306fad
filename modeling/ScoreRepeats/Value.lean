import ScoreRepeats.Calendar
import ScoreRepeats.Number.Numeral
import ScoreRepeats.Number.Shortest
import ScoreRepeats.Text.Quoted

/-!
# Values

The values that a data file can hold: nothing, truth values, numbers, texts, bytes, days and moments,
lists and pairs, sets, and mappings in the order in which their keys came. A list, pair or mapping may
hold itself: it is then named, and inside it the name stands for it. `Value.unfold` looks behind a
name; `Value.items?` and `Value.entries?` give what a list or mapping holds.

`Value.shown` is the text of a value in a message, `Value.plain` the text that a value is read as
where a text is wanted; they differ for texts, days and moments. There is no such text for a value
with a number that is too long to be written, nor for one in which collections stand inside each
other deeper than there is room for (`Value.Obstacle`). How much room there is, is for the program
that reads the value to say.
-/

set_option autoImplicit false
set_option relaxedAutoImplicit false

namespace ScoreRepeats

/-- A value of a data file. -/
inductive Value
  | null
  | bool (truth : Bool)
  | int (number : Int)
  | float (number : Double)
  | text (chars : String)
  | bytes (content : List UInt8)
  | date (day : Date)
  | moment (instant : Moment)
  | list (items : List Value)
  | pair (first second : Value)
  | set (members : List Value)
  | mapping (entries : List (Value × Value))
  /-- A list, pair or mapping that holds itself, with the name that it has inside. -/
  | named (name : Nat) (value : Value)
  /-- The value of this name, inside itself. -/
  | again (name : Nat)
  deriving Inhabited, Repr

namespace Value

/-! ### Values that hold themselves -/

mutual

/-- A value with another in the place of a name. -/
def replace (name : Nat) (meant : Value) : Value → Value
  | .again other => if other = name then meant else .again other
  | .named other value =>
    .named other (if other = name then value else replace name meant value)
  | .list items => .list (replaceItems name meant items)
  | .pair first second => .pair (replace name meant first) (replace name meant second)
  | .mapping entries => .mapping (replaceEntries name meant entries)
  | value => value

def replaceItems (name : Nat) (meant : Value) : List Value → List Value
  | [] => []
  | item :: rest => replace name meant item :: replaceItems name meant rest

def replaceEntries (name : Nat) (meant : Value) : List (Value × Value) → List (Value × Value)
  | [] => []
  | (key, value) :: rest => (key, replace name meant value) :: replaceEntries name meant rest

end

/-- The value behind a name. Where it holds itself it is written out once. -/
def unfold (value : Value) : Value :=
  match value with
  | .named name held => replace name value held
  | value => value

/-- The items of a list. -/
def items? (value : Value) : Option (List Value) :=
  match value.unfold with
  | .list items => some items
  | _ => none

/-- The entries of a mapping. -/
def entries? (value : Value) : Option (List (Value × Value)) :=
  match value.unfold with
  | .mapping entries => some entries
  | _ => none

@[simp] theorem items?_list (items : List Value) : (list items).items? = some items := rfl

@[simp] theorem entries?_mapping (entries : List (Value × Value)) :
    (mapping entries).entries? = some entries := rfl

/-! ### Texts of values -/

/-- What is shown for a collection inside itself. -/
def ellipsis : Value → String
  | .mapping _ => "\x7b...\x7d"
  | .pair .. => "(...)"
  | _ => "[...]"

/-- What keeps a value from being put in words. -/
inductive Obstacle
  /-- A number has too many digits to be written. -/
  | longNumber
  /-- Collections stand inside each other deeper than there is room for. -/
  | tooDeep
  deriving DecidableEq, Repr

/-- Text between braces. -/
def braced (items : List String) : String := "\x7b" ++ ", ".intercalate items ++ "\x7d"

mutual

/-- A value in a message, inside the collections with the given names. The text of a value takes up
one place of the room, and what it holds must do with the rest; the members of a set are first put
in a list. -/
def shownWithin (outer : List (Nat × String)) (room : Nat) (value : Value) :
    Except Obstacle String :=
  if room = 0 then .error .tooDeep
  else match value with
    | .null => .ok "None"
    | .bool truth => .ok (if truth then "True" else "False")
    | .int number => if Numeral.isWritable number then .ok (toString number) else .error .longNumber
    | .float number => .ok number.text
    | .text chars => .ok (Text.quoted chars)
    | .bytes content => .ok (Text.quotedBytes content)
    | .date day => .ok day.shown
    | .moment instant => if room < instant.depth then .error .tooDeep else .ok instant.shown
    | .list items => (shownItems outer (room - 1) items).map Text.bracketed
    | .pair first second => do
      let first ← shownWithin outer (room - 1) first
      let second ← shownWithin outer (room - 1) second
      pure ("(" ++ first ++ ", " ++ second ++ ")")
    | .set members =>
      if members.isEmpty then .ok "set()" else (shownItems outer (room - 2) members).map braced
    | .mapping entries => (shownEntries outer (room - 1) entries).map braced
    | .named name value =>
      if (outer.lookup name).isSome then .ok value.ellipsis
      else shownWithin ((name, value.ellipsis) :: outer) room value
    | .again name => .ok ((outer.lookup name).getD "...")

/-- The items of a list in a message, from the first to the last. -/
def shownItems (outer : List (Nat × String)) (room : Nat) : List Value → Except Obstacle (List String)
  | [] => .ok []
  | item :: rest => do
    let first ← shownWithin outer room item
    let others ← shownItems outer room rest
    pure (first :: others)

/-- The entries of a mapping in a message, each with the key before the value. -/
def shownEntries (outer : List (Nat × String)) (room : Nat) :
    List (Value × Value) → Except Obstacle (List String)
  | [] => .ok []
  | (key, value) :: rest => do
    let key ← shownWithin outer room key
    let value ← shownWithin outer room value
    let others ← shownEntries outer room rest
    pure ((key ++ ": " ++ value) :: others)

end

/-- A value in a message, texts between quotes. -/
def shown (room : Nat) (value : Value) : Except Obstacle String := value.shownWithin [] room

/-- A value read as a text. -/
def plain (room : Nat) : Value → Except Obstacle String
  | .text chars => .ok chars
  | .date day => .ok day.text
  | .moment instant => .ok instant.text
  | value => value.shown room

/-- Whether a value counts as true: nothing, zero and whatever is empty do not. -/
def isTrue : Value → Bool
  | .null => false
  | .bool truth => truth
  | .int number => number != 0
  | .float number => !number.isZero
  | .text chars => chars != ""
  | .bytes content => !content.isEmpty
  | .date _ | .moment _ | .pair .. | .again _ => true
  | .list items | .set items => !items.isEmpty
  | .mapping entries => !entries.isEmpty
  | .named _ value => value.isTrue

/-! ### Mappings -/

/-- A truth value as a number. -/
def ofTruth (truth : Bool) : Int := if truth then 1 else 0

/-- Whether two values are the same key. Numbers and truth values are compared as numbers; no
collection is a key. -/
def sameKey : Value → Value → Bool
  | .null, .null => true
  | .text first, .text second => first == second
  | .bytes first, .bytes second => first == second
  | .date first, .date second => first == second
  | .moment first, .moment second => first.same second
  | .bool first, .bool second => first == second
  | .int first, .int second => first == second
  | .float first, .float second => first.sameNumber second
  | .bool truth, .int number | .int number, .bool truth => number == ofTruth truth
  | .float double, .int number | .int number, .float double => double.equalsInt number
  | .float double, .bool truth | .bool truth, .float double => double.equalsInt (ofTruth truth)
  | _, _ => false

/-- The entries with what belongs to a key set; a new key comes last. -/
def insertEntry {α : Type} (key : Value) (value : α) : List (Value × α) → List (Value × α)
  | [] => [(key, value)]
  | (other, old) :: rest =>
    if other.sameKey key then (other, value) :: rest else (other, old) :: insertEntry key value rest

/-- The entries with only the last one for every key, at the place of the first. -/
def distinct {α : Type} (entries : List (Value × α)) : List (Value × α) :=
  entries.foldl (fun done (key, value) ↦ insertEntry key value done) []

/-- The mapping with these entries, the last one for every key. -/
def ofEntries (entries : List (Value × Value)) : Value := .mapping (distinct entries)

/-- The value under a name among the entries of a mapping. -/
def entry? (name : String) : List (Value × Value) → Option Value
  | [] => none
  | (key, value) :: rest => if key.sameKey (.text name) then some value else entry? name rest

end Value

end ScoreRepeats
