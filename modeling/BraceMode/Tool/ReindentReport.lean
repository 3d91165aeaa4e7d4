import BraceMode.Reindent
import BraceMode.Tool.Source

/-! The `reindent` command: the re-indented text, or with `check` only the lines that would change. -/

namespace BraceMode.Tool

/-- A line that re-indenting changes: its number and its new text. -/
structure ChangedLine where
  number : Nat
  after : List Char
  deriving DecidableEq, Repr

/-- The lines that differ, pairwise, counted from `number`. -/
def changedFrom : (number : Nat) → List (List Char × List Char) → List ChangedLine
  | _, [] => []
  | number, (before, after) :: more =>
    let rest := changedFrom (number + 1) more
    if before = after then rest else ⟨number, after⟩ :: rest

def changedLines (source result : List Char) : List ChangedLine :=
  changedFrom 1 ((Text.lines source).zip (Text.lines result))

/-- The report on one changed line. -/
def changeLine (path : String) (c : ChangedLine) : List Char :=
  (path ++ ":" ++ toString c.number ++ ": ").toList ++ Text.trimStart c.after ++ ['\n']

def writeChanges (path : String) (cs : List ChangedLine) : Script Unit :=
  cs.forM fun c => Script.puts (changeLine path c)

/-- Returns how many lines change. -/
def reindentCommand (m : Mode) (w : World) (verbose check : Bool) (file : String) :
    Script Nat := do
  let source ← readSource w file
  let result := m.reindent source
  let changed := changedLines source result
  if check then writeChanges file changed else Script.puts result
  Script.noteIf verbose (.reindented file changed.length)
  return changed.length

end BraceMode.Tool
