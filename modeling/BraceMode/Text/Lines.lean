/-! Lines of a text. A line feed ends a line and takes one carriage return directly before it along; a
last line without a line feed keeps whatever it ends in, and nothing follows a final line feed. The
recursion is on the text itself, so no line can be lost or invented. -/

namespace BraceMode.Text

def lines : List Char → List (List Char)
  | [] => []
  | '\r' :: '\n' :: t => [] :: lines t
  | '\n' :: t => [] :: lines t
  | c :: t =>
    match lines t with
    | [] => [[c]]
    | l :: ls => (c :: l) :: ls

/-- Every line followed by a line feed. -/
def unlines (ls : List (List Char)) : List Char := ls.flatMap (· ++ ['\n'])

/-- Whether a text ends with a line feed. -/
def endsLine (t : List Char) : Bool := t.getLast? == some '\n'

@[simp] theorem unlines_nil : unlines [] = [] := rfl

@[simp] theorem unlines_cons (l : List Char) (ls : List (List Char)) :
    unlines (l :: ls) = l ++ '\n' :: unlines ls := by simp [unlines]

theorem lines_eq_nil_iff (t : List Char) : lines t = [] ↔ t = [] := by
  fun_cases lines t <;> simp_all

end BraceMode.Text
