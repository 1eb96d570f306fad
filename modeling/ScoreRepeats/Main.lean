import ScoreRepeats.CommandLine

/-!
# The program

Prints the playing order of a score file, and the log to the error stream.
-/

set_option autoImplicit false
set_option relaxedAutoImplicit false

open ScoreRepeats

/-- The number and the reason of a failure to read a file. -/
def fileError : IO.Error → FileError
  | .noFileOrDirectory _ code reason | .permissionDenied _ code reason
  | .inappropriateType _ code reason | .invalidArgument _ code reason
  | .resourceExhausted _ code reason | .interrupted _ code reason | .alreadyExists _ code reason
  | .noSuchThing _ code reason => .refused code.toNat reason
  | .otherError code reason | .resourceBusy code reason | .resourceVanished code reason
  | .unsupportedOperation code reason | .hardwareFault code reason
  | .unsatisfiedConstraints code reason | .illegalOperation code reason
  | .protocolError code reason | .timeExpired code reason => .refused code.toNat reason
  | .unexpectedEof => .undecodable "the file ended too early"
  | .userError reason => .undecodable reason

/-- The text of a file, or why it cannot be had. -/
def readScore (path : String) : IO (Except FileError String) := do
  try
    match String.fromUTF8? (← IO.FS.readBinFile path) with
    | some text => pure (.ok text)
    | none => pure (.error (.undecodable "the bytes of the file are no text in UTF-8"))
  catch error => pure (.error (fileError error))

/-- A text as it is printed. A half of a character is told by its code. -/
def plainText (text : String) : String :=
  String.ofList ((Text.codes text.toList).flatMap fun code ↦
    if Text.isHalf code then Text.codeEscape code else [Char.ofNat code])

/-- What the program works with. -/
def host : CommandLine.Host String where
  reader := .yaml fun _ ↦ "the text breaks the rules of the language"
  room := CommandLine.usualRoom
  stream := .utf8

def main (words : List String) : IO UInt32 := do
  match CommandLine.Arguments.ofList? words with
  | none =>
    IO.eprintln "usage: reprise [-h] [--verbose] score"
    pure 2
  | some arguments =>
    let outcome := CommandLine.run host arguments (← readScore arguments.path)
    for record in outcome.log do
      IO.eprintln (plainText record.line)
    IO.print (plainText outcome.output)
    match outcome.ending with
    | .exit code => pure code.toUInt32
    | .brokenOff breakdown =>
      IO.eprintln (plainText breakdown.message)
      pure 1
