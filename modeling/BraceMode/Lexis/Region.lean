import BraceMode.Lexis.Quote

/-! Where in the language the next character stands: in code, inside a literal opened by some quote, or
inside a block comment. -/

namespace BraceMode

inductive Region where
  | code
  | literal (quote : Quote)
  | comment
  deriving DecidableEq, Repr

namespace Region

/-- The spelling used in trace events. -/
def name : Region → String
  | .code => "Base"
  | .literal q => "InString(" ++ q.name ++ ")"
  | .comment => "InComment"

end Region

end BraceMode
