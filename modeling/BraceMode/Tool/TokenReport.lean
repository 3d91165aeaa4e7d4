import BraceMode.Highlight
import BraceMode.Tool.Source

/-! The `tokens` command: every line with its tokens, blanks left out. -/

namespace BraceMode.Tool

def styleLabel (s : Option Style) : String := (s.map Style.name).getD "punct"

/-- Whether a token is listed: all but blanks without a style. -/
def isListed (t : Token) : Bool := t.style.isSome || !Text.allBlank t.text

/-- The tokens of a line that are listed. -/
def listedTokens (l : HighlightedLine) : List Token := l.tokens.filter isListed

/-- The report on one line. -/
def tokenLine (number : Nat) (l : HighlightedLine) : List Char :=
  alignRight 4 (toString number) ++ " |".toList ++
    (listedTokens l).flatMap (fun t => (" " ++ styleLabel t.style ++ ":").toList ++ t.text) ++ ['\n']

/-- Writes the report on numbered lines and counts the tokens listed. -/
def writeTokenLines : (number : Nat) → List HighlightedLine → Script Nat
  | _, [] => .done 0
  | number, l :: ls => do
    Script.puts (tokenLine number l)
    return (listedTokens l).length + (← writeTokenLines (number + 1) ls)

def tokensCommand (m : Mode) (w : World) (verbose : Bool) (files : List String) : Script Nat :=
  reportFiles w files fun path source => do
    let count ← writeTokenLines 1 (m.highlight source)
    Script.noteIf verbose (.tokenized path count)
    return count

end BraceMode.Tool
