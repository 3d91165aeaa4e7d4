import BraceMode.Settings
import BraceMode.Text.Quoted

/-! Why a run of the tool fails. Each cause has a kind, a text for people and a form for reports; what
depends on the file system alone has neither text. -/

namespace BraceMode.Tool

inductive Failure where
  | configNotFound (path : String)
  | configMalformed
  | noInput
  | inputNotFound (path : String)
  | inputNotFile (path : String)
  | settings (e : Settings.OutOfRange)
  | checkFailed (changed : Nat)
  | io
  deriving DecidableEq, Repr

namespace Failure

def kind : Failure → String
  | .configNotFound _ | .configMalformed => "Config"
  | .noInput | .inputNotFound _ | .inputNotFile _ => "Validation"
  | .settings _ => "Mode"
  | .checkFailed _ => "CheckFailed"
  | .io => "Io"

/-- The sentence that says what is wrong, where the tool words it itself. -/
def detail? : Failure → Option String
  | .configNotFound path => some ("Configuration file not found: " ++ path)
  | .noInput => some "No input files specified"
  | .inputNotFound path => some ("Input path does not exist: " ++ path)
  | .inputNotFile path => some ("Input path is not a file: " ++ path)
  | .configMalformed | .settings _ | .checkFailed _ | .io => none

def message? (f : Failure) : Option String :=
  match f with
  | .configNotFound _ => f.detail?.map ("Configuration error: " ++ ·)
  | .noInput | .inputNotFound _ | .inputNotFile _ => f.detail?.map ("Validation error: " ++ ·)
  | .settings e => some e.message
  | .checkFailed n => some (toString n ++ " line(s) would be re-indented")
  | .configMalformed | .io => none

/-- The failure as a report shows it. -/
def report? (f : Failure) : Option String :=
  match f with
  | .configNotFound _ | .noInput | .inputNotFound _ | .inputNotFile _ =>
    f.detail?.map fun detail => f.kind ++ "(" ++ Text.quoted detail ++ ")"
  | .settings e =>
    some ("Mode(OutOfRange \x7b field: " ++ Text.quoted e.field.name ++ ", value: " ++ toString e.value ++
      ", max: " ++ toString maxWidth ++ " \x7d)")
  | .checkFailed n => some ("CheckFailed(" ++ toString n ++ ")")
  | .configMalformed | .io => none

end Failure

end BraceMode.Tool
