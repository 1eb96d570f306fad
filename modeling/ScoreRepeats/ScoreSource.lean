import ScoreRepeats.ScoreFile
import ScoreRepeats.Yaml.Reading

/-!
# Loading scores

A score from a file. There may be no file to read, the reader of files may find no value in it, or
the value may describe no score.
-/

set_option autoImplicit false
set_option relaxedAutoImplicit false

namespace ScoreRepeats

/-- Why the content of a file cannot be had. -/
inductive FileError
  /-- The system does not give it, for a reason that has a number. -/
  | refused (number : Nat) (reason : String)
  /-- The bytes of the file are no text. -/
  | undecodable (complaint : String)
  deriving DecidableEq, Repr

namespace FileError

/-- There is no file. -/
def missing : FileError := .refused 2 "No such file or directory"

def message (path : String) : FileError → String
  | .refused number reason => s!"[Errno {number}] {reason}: " ++ Text.quoted path
  | .undecodable complaint => complaint

end FileError

/-- A reader of files: the value that a file holds or why it holds none, and what the reader says
about a file that breaks the rules of its language. -/
structure Reader (Content : Type) where
  read : Content → Except Yaml.Error Value
  complaint : Content → String

/-- The reader of YAML texts, with what it says about a malformed one. -/
def Reader.yaml (complaint : String → String) : Reader String := ⟨Yaml.read, complaint⟩

/-- Why a file holds no score. -/
inductive LoadError
  | file (path : String) (error : FileError)
  | yaml (error : Yaml.Error) (complaint : String)
  | score (error : ScoreError)
  deriving DecidableEq, Repr

def LoadError.message : LoadError → String
  | .file path error => error.message path
  | .yaml error complaint => error.message?.getD complaint
  | .score error => error.message

/-- Whether loading breaks off at an error, so that nothing is reported: the reader breaks off, or a
value is nested too deep to be put in words. -/
def LoadError.breaksOff : LoadError → Bool
  | .yaml error _ => error.breaksOff
  | .score (.unshown .tooDeep) => true
  | _ => false

/-- The score in a file with this content, or in one that cannot be read. -/
def Score.load {Content : Type} (reader : Reader Content) (room : Nat) (path : String)
    (content : Except FileError Content) : Except LoadError Score :=
  match content with
  | .error error => .error (.file path error)
  | .ok file =>
    match reader.read file with
    | .error error => .error (.yaml error (reader.complaint file))
    | .ok value => (Score.ofValue room value).mapError .score

end ScoreRepeats
