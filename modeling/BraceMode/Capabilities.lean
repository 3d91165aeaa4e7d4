/-! Fixed hints for an editor: which typed characters re-indent the line, which pairs close themselves, how
to fold and how to comment. Reading text does not consult them. -/

namespace BraceMode

structure Capabilities where
  electricChars : String := "\x7b\x7d):"
  closeBrackets : String := "()[]\x7b\x7d''\"\"``"
  fold : String := "brace"
  blockCommentStart : String := "/*"
  blockCommentEnd : String := "*/"
  lineComment : String := "//"
  deriving DecidableEq, Repr

/-- Consecutive characters in pairs; an odd last one is dropped. -/
def pairUp : List Char → List (Char × Char)
  | a :: b :: t => (a, b) :: pairUp t
  | _ => []

namespace Capabilities

def isElectric (k : Capabilities) (c : Char) : Bool := k.electricChars.toList.contains c

/-- The pairs that close themselves, each opener with its closer. -/
def pairs (k : Capabilities) : List (Char × Char) := pairUp k.closeBrackets.toList

/-- The closer that an editor adds behind `c`. -/
def closerOf? (k : Capabilities) (c : Char) : Option Char :=
  (k.pairs.find? (·.1 == c)).map (·.2)

def blockComment (k : Capabilities) (t : String) : String :=
  k.blockCommentStart ++ " " ++ t ++ " " ++ k.blockCommentEnd

def commentLine (k : Capabilities) (t : String) : String := k.lineComment ++ " " ++ t

end Capabilities

end BraceMode
