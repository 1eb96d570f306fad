import ScoreRepeats.Performance
import ScoreRepeats.ScoreSource

/-!
# The command line

What the program prints for a score file: one line with an id and a pass for every sounding of a bar,
or nothing and an error in the log. `run` is a function of the content of the file and of what the
program works with (`Host`), so that all that the program does with it can be reasoned about. A run
may be broken off by a failure that nothing reports; what it has printed and logged until then is
left.
-/

set_option autoImplicit false
set_option relaxedAutoImplicit false

namespace ScoreRepeats.CommandLine

/-- How grave a log record is. -/
inductive Level
  | debug | info | error
  deriving DecidableEq, Repr

def Level.name : Level → String
  | .debug => "DEBUG"
  | .info => "INFO"
  | .error => "ERROR"

/-- A record of the log. -/
structure Record where
  level : Level
  logger : String
  message : String
  deriving DecidableEq, Repr

def Record.line (record : Record) : String :=
  record.level.name ++ ":" ++ record.logger ++ ":" ++ record.message

/-- The arguments of the program. -/
structure Arguments where
  path : String
  verbose : Bool
  deriving DecidableEq, Repr

/-- The arguments in a command line: one path, and options. -/
def Arguments.ofList? (words : List String) : Option Arguments :=
  let isOption (word : String) : Bool := word == "-v" || word == "--verbose"
  match words.filter fun word ↦ !isOption word with
  | [path] => some ⟨path, words.any isOption⟩
  | _ => none

/-! ### The log -/

def loaded (score : Score) (path : String) : Record :=
  let count := score.bars.length
  ⟨.info, "reprise.score_file", s!"Loaded {count} bars in " ++ score.rhythm.text ++ " from " ++ path⟩

def built (piece : Structure) : Record :=
  let (bars, regions) := (piece.size, piece.parts.length)
  ⟨.debug, "reprise.regions",
    "Built " ++ piece.kind.name ++ s!" structure: {bars} bars in {regions} regions"⟩

def valid (piece : Structure) (index : MarkerIndex) : Record :=
  ⟨.debug, "reprise.validator", "Valid " ++ piece.kind.name ++ " structure: " ++ index.text⟩

def resolved (piece : Structure) (order : PlayingOrder) : Record :=
  let (bars, played) := (piece.size, order.length)
  ⟨.debug, "reprise.resolver",
    "Resolved " ++ piece.kind.name ++ s!" structure of {bars} bars into {played} played bars"⟩

def failed (message : String) : Record := ⟨.error, "reprise.__main__", message⟩

/-- The records of the steps from the bars of a score to its playing order, as far as they succeed. -/
def steps (score : Score) : List Record :=
  let rhythm := some score.rhythm
  match Structure.ofBars score.bars with
  | .error _ => []
  | .ok piece =>
    built piece :: match piece.validate rhythm score.auftakt with
      | .error _ => []
      | .ok index =>
        valid piece index :: match piece.resolveWith rhythm score.auftakt index with
          | .error _ => []
          | .ok order => [resolved piece order]

/-! ### Runs -/

/-- The report of a file that holds no score. -/
def unreadable (path message : String) : Record :=
  failed ("Cannot read score " ++ path ++ ": " ++ message)

/-- The report of a broken rule. -/
def invalid (violation : Violation) : Record :=
  failed ("Invalid structure (" ++ violation.rule.code ++ ") at positions "
    ++ Text.bracketed (violation.positions.map toString) ++ ": " ++ violation.message)

/-- The report of a score that is refused. -/
def refused (path : String) : Refusal → Record
  | .violation violation => invalid violation
  | .unwritable => unreadable path Numeral.unwritable

/-- The line for one sounding of a bar. -/
def playedLine (id : String) (pass : Nat) : String := id ++ " " ++ toString pass

/-- A failure that nothing reports, so that the run is broken off. -/
inductive Breakdown
  | loading (error : LoadError)
  | resolution (error : ResolutionError)
  /-- A line that cannot be written to the stream. -/
  | printing (line : String)
  deriving DecidableEq, Repr

def Breakdown.message : Breakdown → String
  | .loading error => error.message
  | .resolution error => error.message
  | .printing line => "cannot print " ++ Text.quoted line

/-- How a run of the program ends. -/
inductive Ending
  | exit (code : Nat)
  | brokenOff (breakdown : Breakdown)
  deriving DecidableEq, Repr

/-- What a run of the program leaves behind: how it ended, the text that it has printed, and its log.
-/
structure Outcome where
  ending : Ending
  output : String
  log : List Record
  deriving DecidableEq, Repr

/-- A stream of text, by the codes of the characters that it can write. -/
structure Stream where
  canWrite : Nat → Bool

namespace Stream

/-- A stream in UTF-8, which cannot write half of a character. -/
def utf8 : Stream := ⟨fun code ↦ !Text.isHalf code⟩

/-- Whether a line can be written as a whole. A line that cannot is not begun. -/
def writes (stream : Stream) (line : String) : Bool :=
  (Text.codes line.toList).all stream.canWrite

end Stream

/-- The text of some lines. -/
def textOf (lines : List String) : String := String.join (lines.map (· ++ "\n"))

/-- What is left of a run that prints lines. It is broken off at the first that cannot be written. -/
def printed (stream : Stream) (log : List Record) (lines : List String) : Outcome where
  ending := match lines.find? fun line ↦ !stream.writes line with
    | none => .exit 0
    | some line => .brokenOff (.printing line)
  output := textOf (lines.takeWhile stream.writes)
  log := log

/-- What a run works with: a reader of files, room for the texts of values within values, and a
stream to print to. -/
structure Host (Content : Type) where
  reader : Reader Content
  room : Nat
  stream : Stream

/-- The room that is left for the texts of values: a thousand calls may be under way, and a score
is read in the fourth. -/
def usualRoom : Nat := 1000 - 4

/-- A run of the program on a score. Without the option to be verbose the steps are not logged. -/
def runOn (stream : Stream) (arguments : Arguments) (score : Score) : Outcome :=
  let log := loaded score arguments.path :: if arguments.verbose then steps score else []
  match perform score.bars (some score.rhythm) score.auftakt with
  | .error (.refused refusal) => ⟨.exit 1, "", log ++ [refused arguments.path refusal]⟩
  | .error (.resolution error) => ⟨.brokenOff (.resolution error), "", log⟩
  | .ok order => printed stream log (order.pairs.map fun (id, pass) ↦ playedLine id pass)

/-- A run of the program on a file with this content, or on one that cannot be read. It is broken off
where loading is. -/
def run {Content : Type} (host : Host Content) (arguments : Arguments)
    (content : Except FileError Content) : Outcome :=
  match Score.load host.reader host.room arguments.path content with
  | .error error =>
    if error.breaksOff then ⟨.brokenOff (.loading error), "", []⟩
    else ⟨.exit 1, "", [unreadable arguments.path error.message]⟩
  | .ok score => runOn host.stream arguments score

end ScoreRepeats.CommandLine
