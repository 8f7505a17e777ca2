import Gatehouse.Settings.Reading
import Gatehouse.Settings.Validation
import Gatehouse.Storage.Disk

namespace Gatehouse.Settings

inductive LoadError
  | unreadable (path : String) (cause : Storage.Error)
  | malformed
  | invalid (problems : List Problem)
deriving Repr, DecidableEq

def problemsText (problems : List Problem) : String := ", ".intercalate (problems.map Problem.text)

def validationMessage (problems : List Problem) : String :=
  "Validation failed: " ++ problemsText problems

def Problem.describe (p : Problem) : String :=
  "ValidationError \x7b field: " ++ Text.quoted p.field ++ ", message: " ++ Text.quoted p.message ++
    " \x7d"

/-- All there is to know about a failure. Where a text is malformed is not told. -/
def LoadError.describe : LoadError → String
  | .unreadable path cause =>
    "Io \x7b path: " ++ Text.quoted path ++ ", source: " ++ cause.describe ++ " \x7d"
  | .malformed => "Parse"
  | .invalid problems =>
    "Validation([" ++ ", ".intercalate (problems.map Problem.describe) ++ "])"

def parse (text : String) : Except LoadError Settings :=
  match ofToml? text with
  | none => .error .malformed
  | some s => (s.validate.mapError .invalid).map fun _ => s

def load (path : String) (disk : Storage.Disk) : Except LoadError Settings :=
  match disk.readText path with
  | .error e => .error (.unreadable path e)
  | .ok text => parse text

end Gatehouse.Settings
