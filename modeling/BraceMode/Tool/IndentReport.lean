import BraceMode.Highlight
import BraceMode.Tool.Source

/-! The `indent` command: every line with the indentation it has and the one suggested for it. -/

namespace BraceMode.Tool

/-- Whether a line stands elsewhere than suggested. A blank line never does, nor does one without a
suggestion. -/
def isMisplaced (actual : Nat) (suggested : Option Int) (t : List Char) : Bool :=
  !Text.allBlank t && suggested.any (· != (actual : Int))

/-- The report on one line. -/
def indentLine (number actual : Nat) (suggested : Option Int) (t : List Char) : List Char :=
  alignRight 4 (toString number) ++ ' ' :: alignRight 3 (toString actual) ++
    ' ' :: alignRight 3 ((suggested.map toString).getD "-") ++
    ' ' :: (if isMisplaced actual suggested t then '*' else ' ') :: " | ".toList ++ t ++ ['\n']

/-- Writes the report on numbered lines and counts the misplaced ones. -/
def writeIndentLines (m : Mode) : (number : Nat) → List (HighlightedLine × List Char) → Script Nat
  | _, [] => .done 0
  | number, (l, t) :: more => do
    let actual := Text.indentation m.tabSize t
    Script.puts (indentLine number actual l.indent t)
    let rest ← writeIndentLines m (number + 1) more
    return (if isMisplaced actual l.indent t then 1 else 0) + rest

def indentCommand (m : Mode) (w : World) (verbose : Bool) (files : List String) : Script Nat :=
  reportFiles w files fun path source => do
    let count ← writeIndentLines m 1 ((m.highlight source).zip (Text.lines source))
    Script.noteIf verbose (.checkedIndentation path count)
    return count

end BraceMode.Tool
