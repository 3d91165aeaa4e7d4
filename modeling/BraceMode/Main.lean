import BraceMode.Tool.Program

/-! The command-line program. It looks at the paths and variables that a run may ask for, lets the library
decide, and prints what comes out. -/

namespace BraceMode.Main

open BraceMode.Tool

/-- What a path leads to. A file that cannot be read shows as bytes that are no text. -/
def probe (path : String) : IO (Option FileNode) := do
  try
    return some (.file (← IO.FS.readBinFile path).toList)
  catch _ =>
    try
      let real ← IO.FS.realPath path
      if ← real.isDir then return some .directory
      return if ← real.pathExists then some (.file [0xFF]) else none
    catch _ => return none

/-- The paths that a run may look at. -/
def pathsOf (places : List String) : Option Invocation → List String
  | some (.run options command) =>
    let sources := match command with
      | .tokens files | .indent files => files
      | .reindent file _ => [file]
      | .capabilities _ => []
    places ++ options.config.toList ++ sources
  | _ => []

/-- The world as it is when the run starts. -/
def observe (args : List String) : IO World := do
  let names := [CommandLine.verboseVariable, CommandLine.noColorVariable, CommandLine.configVariable]
  let known ← names.mapM fun name => do return (name, ← IO.getEnv name)
  let home ← IO.getEnv "HOME"
  let configHome := ((← IO.getEnv "XDG_CONFIG_HOME").filter (·.startsWith "/")).or
    (home.map (· ++ "/.config"))
  let places := Config.places home configHome
  let lookup (name : String) : Option String := (known.lookup name).join
  let asked := CommandLine.parse? { find? := fun _ => none, environment? := lookup } args
  let nodes ← (pathsOf places asked).mapM fun path => do return (path, ← probe path)
  return { find? := fun path => (nodes.lookup path).join, configPlaces := places, environment? := lookup }

end BraceMode.Main

open BraceMode.Tool in
def main (args : List String) : IO UInt32 := do
  let stderr ← IO.getStderr
  match runProgram Writer.unlimited () (← BraceMode.Main.observe args) args with
  | none =>
    stderr.putStrLn "error: invalid arguments"
    return usageExit.toUInt32
  | some report =>
    (← IO.getStdout).write ⟨report.out.toArray⟩
    for line in report.log do stderr.putStrLn line
    if let some f := report.failure then stderr.putStrLn ("Error: " ++ f.report?.getD f.kind)
    return report.exit.toUInt32
