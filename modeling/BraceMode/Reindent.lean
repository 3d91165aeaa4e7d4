import BraceMode.Highlight

/-! Re-indenting. Every line is moved first and read afterwards, so later suggestions build on the
corrected text. A blank line becomes empty, and a line without a suggestion stays as it is. -/

namespace BraceMode

/-- A line with its blanks replaced by as many spaces as `column` says; none for a negative column. -/
def indentTo (column : Int) (content : List Char) : List Char :=
  List.replicate column.toNat ' ' ++ content

namespace Mode

/-- The line `t` as it should be written in state `s`. -/
def reindentLine (m : Mode) (s : State) (t : List Char) : List Char :=
  let content := Text.trimStart t
  if content = [] then []
  else
    match m.suggest s content with
    | some column => indentTo column content
    | none => t

def reindentFrom (m : Mode) (s : State) : List (List Char) → List (List Char)
  | [] => []
  | t :: ts =>
    let written := m.reindentLine s t
    written :: m.reindentFrom (m.readLine s written).state ts

/-- The whole text re-indented. The line feed after the last line goes when `t` does not end with one. -/
def reindent (m : Mode) (t : List Char) : List Char :=
  let out := Text.unlines (m.reindentFrom (m.start 0) (Text.lines t))
  if Text.endsLine t then out else out.dropLast

@[simp] theorem length_reindentFrom (m : Mode) (s : State) (ts : List (List Char)) :
    (m.reindentFrom s ts).length = ts.length := by
  induction ts generalizing s with
  | nil => rfl
  | cons t ts ih => simp [reindentFrom, ih]

end Mode

end BraceMode
