/-! Styles name how an editor colours a token. Blanks and punctuation have none, so a token carries an
`Option Style`. -/

namespace BraceMode

inductive Style where
  | keyword
  | atom
  | number
  | operator
  | string
  | comment
  | variable
  deriving DecidableEq, Repr

namespace Style

/-- Every style, in the order a theme lists them. -/
def all : List Style := [.keyword, .atom, .number, .operator, .string, .comment, .variable]

/-- The class name a theme looks up. -/
def name : Style → String
  | .keyword => "keyword"
  | .atom => "atom"
  | .number => "number"
  | .operator => "operator"
  | .string => "string"
  | .comment => "comment"
  | .variable => "variable"

def ofName? (s : String) : Option Style := all.find? (·.name == s)

theorem mem_all (s : Style) : s ∈ all := by cases s <;> decide

theorem ofName?_name (s : Style) : ofName? s.name = some s := by cases s <;> decide

end Style

end BraceMode
