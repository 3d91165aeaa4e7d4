import BraceMode.Text.Blank

/-! Screen columns. A character is one column wide, a tab reaches the next multiple of the tab size, and
a tab size of zero acts as one, so a step always moves the column forward. Columns are counted in words of
64 bits, which no tab size of a mode makes too small; a larger one can. -/

namespace BraceMode.Text

def wordSize : Nat := 18446744073709551616

/-- A sum of sizes, as a word holds it. -/
def wrapWord (n : Nat) : Nat := n % wordSize

/-- The column after `c` when `c` starts at `col`. -/
def stop (tab col : Nat) (c : Char) : Nat :=
  if c = '\t' then col + tab - col % tab else col + 1

/-- The column after `c` as it is counted. -/
def advance (tab col : Nat) (c : Char) : Nat := wrapWord (stop tab col c)

/-- The column reached by a text that starts at column 0. -/
def width (tabSize : Nat) (t : List Char) : Nat := t.foldl (advance (max 1 tabSize)) 0

/-- The screen width of the blanks a line starts with. -/
def indentation (tabSize : Nat) (t : List Char) : Nat := width tabSize (lead t)

theorem wrapWord_of_lt {n : Nat} (h : n < wordSize) : wrapWord n = n := Nat.mod_eq_of_lt h

theorem wrapWord_le (n : Nat) : wrapWord n ≤ n := Nat.mod_le n wordSize

theorem lt_stop {tab : Nat} (h : 0 < tab) (col : Nat) (c : Char) : col < stop tab col c := by
  have := Nat.mod_lt col h
  unfold stop
  split <;> omega

@[simp] theorem width_nil (tabSize : Nat) : width tabSize [] = 0 := rfl

theorem width_concat (tabSize : Nat) (t : List Char) (c : Char) :
    width tabSize (t ++ [c]) = advance (max 1 tabSize) (width tabSize t) c := by
  simp [width]

theorem width_replicate (tabSize : Nat) {n : Nat} (h : n < wordSize) :
    width tabSize (List.replicate n ' ') = n := by
  induction n with
  | zero => rfl
  | succ n ih =>
    rw [List.replicate_succ', width_concat, ih (Nat.lt_of_succ_lt h)]
    exact wrapWord_of_lt h

end BraceMode.Text
