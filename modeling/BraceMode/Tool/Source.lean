import BraceMode.Tool.Script
import BraceMode.Tool.World

/-! Source files: the ways in which a command gets at its input, and the layout of report columns. -/

namespace BraceMode.Tool

/-- Reads a source file after making sure that it is one. -/
def readSource (w : World) (path : String) : Script (List Char) :=
  match w.find? path with
  | none => .fail (.inputNotFound path)
  | some .directory => .fail (.inputNotFile path)
  | some (.file bytes) => do
    Script.note (.readingSource path)
    match Text.decode? bytes with
    | some t => return t
    | none => .fail .io

/-- The line above the report of one of several files. -/
def fileHeader (path : String) : List Char := ("==> " ++ path ++ " <==\n").toList

/-- Reports on each file in order, under headers when there are several, and adds up the counts. -/
def reportFiles (w : World) (files : List String)
    (report : String → List Char → Script Nat) : Script Nat :=
  if files.isEmpty then .fail .noInput
  else files.foldlM (fun total path => do
    let source ← readSource w path
    if 1 < files.length then Script.puts (fileHeader path)
    return total + (← report path source)) 0

/-- A text moved to the right edge of a column of `n` characters; one that is wider stays as it is. -/
def alignRight (n : Nat) (s : String) : List Char :=
  List.replicate (n - s.length) ' ' ++ s.toList

end BraceMode.Tool
