import BraceMode.Tool.CapabilityReport
import BraceMode.Tool.CommandLine
import BraceMode.Tool.Config
import BraceMode.Tool.IndentReport
import BraceMode.Tool.ReindentReport
import BraceMode.Tool.TokenReport

/-! A whole run of the tool, from its arguments to its exit code. Arguments come first, then the
configuration, then the command. -/

namespace BraceMode.Tool

/-- The mode for checked settings. -/
def modeFor (c : Config) : Script Mode := Script.ofExcept ((Mode.ofSettings c.settings).mapError .settings)

/-- Runs the command and notes how it went. -/
def Command.script (m : Mode) (w : World) (verbose : Bool) : Command → Script Unit
  | .tokens files => do Script.note (.tokensDone (← tokensCommand m w verbose files))
  | .indent files => do
    let mismatches ← indentCommand m w verbose files
    if 0 < mismatches then Script.note (.linesDiffer mismatches)
  | .reindent file check => do
    let changed ← reindentCommand m w verbose check file
    Script.flush (.done ())
    if check && decide (0 < changed) then Script.fail (.checkFailed changed)
    else Script.note (.reindentDone changed)
  | .capabilities chars => do
    capabilitiesCommand {} verbose chars
    Script.note .capabilitiesDone

def programScript (w : World) (options : Options) (command : Command) : Script Unit := do
  let loaded ← Config.load w options.config
  let config ← Script.ofExcept (loaded.override options.indentUnit options.tabSize)
  let m ← modeFor config
  command.script m w (options.verbose || config.verbose)

/-- The line that names the version. -/
def versionLine (sub : Option Subcommand) : String :=
  "cabt" ++ ((sub.map fun c => "-" ++ c.name).getD "") ++ " 0.1.0\n"

/-- What a run shows. `failure` is the cause when it fails. -/
structure Report where
  exit : UInt8
  out : List UInt8 := []
  log : List String := []
  failure : Option Failure := none

/-- The exit code of a run whose arguments make no sense. -/
def usageExit : UInt8 := 2

/-- Runs the tool into a writer; none when the arguments make no sense. A version is shown whether or not
the writer takes it. -/
def runProgram {σ : Type} (out : Writer σ) (start : σ) (w : World) (args : List String) :
    Option Report :=
  (CommandLine.parse? w args).map fun
    | .version sub => { exit := 0, out := (out.write start (Text.encode (versionLine sub).toList)).1 }
    | .run options command =>
      let outcome := (programScript w options command).run out start
      let shown := outcome.log.filter fun e => options.verbose || !e.isDebug
      let log := shown.map LogEvent.line
      match outcome.result with
      | .ok _ => { exit := 0, out := outcome.out, log }
      | .error f => { exit := 1, out := outcome.out, log, failure := some f }

end BraceMode.Tool
