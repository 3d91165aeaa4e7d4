import BraceMode.Lexis.Style

/-! Word tables. A word is a keyword, an atom or a plain name, and a keyword wins over an atom of the same
spelling. Extra words extend the tables and never take a word away. -/

namespace BraceMode

structure Vocabulary where
  keywords : List String
  atoms : List String

namespace Vocabulary

/-- The words of the language itself. -/
def basic : Vocabulary where
  keywords := ["fun", "var", "class", "static", "if", "else", "for", "while", "import", "and", "or"]
  atoms := ["true", "false", "input", "clock", "len", "print", "number", "bool", "str"]

/-- Words that label a branch of a block wherever they are keywords. -/
def labels : List String := ["case", "default"]

def isLabel (word : String) : Bool := labels.contains word

def isKeyword (v : Vocabulary) (word : String) : Bool := v.keywords.contains word

def isAtom (v : Vocabulary) (word : String) : Bool := v.atoms.contains word

def classify (v : Vocabulary) (word : String) : Style :=
  if v.isKeyword word then .keyword else if v.isAtom word then .atom else .variable

/-- The tables with more words of either class. -/
def extend (v : Vocabulary) (keywords atoms : List String) : Vocabulary where
  keywords := v.keywords ++ keywords
  atoms := v.atoms ++ atoms

/-- Whether two vocabularies hold the same words, whatever their order and repetitions. -/
def same (v w : Vocabulary) : Bool :=
  v.keywords.all w.isKeyword && w.keywords.all v.isKeyword &&
    v.atoms.all w.isAtom && w.atoms.all v.isAtom

theorem isKeyword_extend (v : Vocabulary) (keywords atoms : List String) (word : String) :
    (v.extend keywords atoms).isKeyword word = (v.isKeyword word || keywords.contains word) := by
  simp [isKeyword, extend]

theorem isAtom_extend (v : Vocabulary) (keywords atoms : List String) (word : String) :
    (v.extend keywords atoms).isAtom word = (v.isAtom word || atoms.contains word) := by
  simp [isAtom, extend]

end Vocabulary

end BraceMode
