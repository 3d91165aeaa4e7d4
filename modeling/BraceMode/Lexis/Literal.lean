import BraceMode.Lexis.Quote

/-! String literals. The body ends with the first delimiter that no backslash takes; a body that never
meets one ends with the text, and `Ending` tells whether the last character was an open escape. -/

namespace BraceMode.Lexis.Literal

inductive Ending where
  | closed
  | escaping
  | unclosed
  deriving DecidableEq, Repr

/-- The length of a literal's body in `t`, delimiter included, and how it ends. `escaped` says that the
first character is taken by a backslash before it. -/
def scan (q : Quote) : (escaped : Bool) → (t : List Char) → Nat × Ending
  | escaped, [] => (0, if escaped then .escaping else .unclosed)
  | escaped, c :: t =>
    if c = q.char ∧ escaped = false then (1, .closed)
    else
      let (n, ending) := scan q (!escaped && q.hasEscapes && c == '\\') t
      (n + 1, ending)

/-- Whether the literal is still open after a body with this ending. -/
def Ending.staysOpen (q : Quote) : Ending → Bool
  | .closed => false
  | .escaping => true
  | .unclosed => q.spansLines

theorem scan_fst_le (q : Quote) (escaped : Bool) (t : List Char) :
    (scan q escaped t).1 ≤ t.length := by
  induction t generalizing escaped with
  | nil => simp [scan]
  | cons c t ih =>
    unfold scan
    split
    · simp
    · simp [ih]

theorem scan_fst_pos (q : Quote) (escaped : Bool) (c : Char) (t : List Char) :
    0 < (scan q escaped (c :: t)).1 := by
  unfold scan
  split <;> simp

end BraceMode.Lexis.Literal
