import BraceMode.Toml.Settings
import BraceMode.Tool.Script
import BraceMode.Tool.World

/-! The tool's configuration: whether to be verbose, and the settings of the mode. It comes from a named
file or from the first of the standard places that has one; widths given for the run come on top and are
checked again. -/

namespace BraceMode.Tool

structure Config where
  verbose : Bool := false
  settings : Settings := {}
  deriving DecidableEq, Repr

namespace Config

def fileName : String := "cabt.toml"

/-- Where a configuration is looked for, in this order: the working directory, the home directory and the
directory for configurations. -/
def places (home configHome : Option String) : List String :=
  [some fileName, home.map (· ++ "/.config/cabt/" ++ fileName),
    configHome.map (· ++ "/cabt/" ++ fileName)].filterMap id

/-- The configuration with one of its parts read from a value. -/
def set? (c : Config) (key : String) (v : Toml.Value) : Option Config :=
  match key with
  | "verbose" => v.toBoolean?.map fun b => { c with verbose := b }
  | "mode" => (Settings.ofValue? v).map fun s => { c with settings := s }
  | _ => none

def ofEntries? (es : Toml.Entries) : Option Config := es.foldlM (fun c e => c.set? e.1 e.2) {}

def check (c : Config) : Except Failure Config :=
  match c.settings.fault? with
  | some e => .error (.settings e)
  | none => .ok c

/-- Reads a configuration and checks its widths. -/
def parse (t : List Char) : Except Failure Config :=
  match Toml.parse? t >>= ofEntries? with
  | none => .error .configMalformed
  | some c => c.check

/-- The configuration with the widths given for this run. -/
def override (c : Config) (indentUnit tabSize : Option Nat) : Except Failure Config :=
  check { c with settings := { c.settings with
    indentUnit := indentUnit.getD c.settings.indentUnit
    tabSize := tabSize.getD c.settings.tabSize } }

/-- The configuration in a file. -/
def loadFrom (w : World) (path : String) : Script Config :=
  if w.isPresent path then
    match w.text? path with
    | none => .fail .io
    | some t => do
      let c ← Script.ofExcept (parse t)
      Script.note (.loadedConfiguration path)
      return c
  else .fail (.configNotFound path)

/-- The configuration in the first standard place that has one; the default when none has. -/
def loadStandard (w : World) : Script Config :=
  match w.configPlaces.find? w.isPresent with
  | some path => loadFrom w path
  | none => return {}

def load (w : World) : Option String → Script Config
  | some path => loadFrom w path
  | none => loadStandard w

end Config

end BraceMode.Tool
