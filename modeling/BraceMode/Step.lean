import BraceMode.Cursor
import BraceMode.Mode

/-! One reading step: from a cursor and a state to the next token. A run of blanks is a token of its own;
otherwise the lexeme at the cursor is taken, and its mark, if any, changes the open frames. On a faithful
host every step before the line end takes a character, so reading a line ends. -/

namespace BraceMode

structure Step where
  cursor : Cursor
  state : State
  style : Option Style := none
  events : List Event := []

namespace Mode

/-- The state in which the characters at the cursor are read. -/
def prepare (h : Host) (c : Cursor) (s : State) : State :=
  if h.atLineStart c then s.startLine (clampColumn (h.indentation c)) else s

/-- Takes the lexeme `l` for a token that starts at `column`. A comment neither settles the alignment of
the top frame nor counts as the first token of its line. -/
def absorb (column : Int) (l : Lexeme) (s : State) : State × List Event :=
  let entered := s.enter l.entered
  let switches := Event.switches s.region l.entered
  if l.style = some .comment then (entered, switches)
  else
    let aligned := entered.align
    let change := aligned.change l.mark
    ({ aligned.apply column change with fresh := false }, switches ++ aligned.events column change)

/-- The column of a token; the host is asked only where a mark needs it. -/
def markColumn (h : Host) (c : Cursor) (l : Lexeme) : Int :=
  if l.mark.isSome then clampColumn (h.column c) else 0

def step (m : Mode) (h : Host) (c : Cursor) (s : State) : Step :=
  let ready := prepare h c s
  let blanks := Lexis.run Text.isBlank c.rest
  let after := c.advance blanks
  if blanks ≠ 0 ∨ h.atLineEnd after = true then { cursor := after, state := ready }
  else
    let l := Lexeme.read m.vocabulary c.token ready.region c.rest
    let done := c.advance l.size
    let next := absorb (markColumn h done l) l ready
    { cursor := done, state := next.1, style := l.style, events := next.2 }

theorem region_prepare (h : Host) (c : Cursor) (s : State) : (prepare h c s).region = s.region := by
  unfold prepare
  split <;> rfl

/-- Where the text goes on with a character that is not blank, a step takes the lexeme there. -/
theorem step_of_not_isBlank (m : Mode) {h : Host} {c : Cursor} {d : Char} {t : List Char} (s : State)
    (hrest : c.rest = d :: t) (hd : Text.isBlank d = false) (hend : h.atLineEnd c = false) :
    let l := Lexeme.read m.vocabulary c.token s.region c.rest
    let next := absorb (markColumn h (c.advance l.size) l) l (prepare h c s)
    m.step h c s =
      { cursor := c.advance l.size, state := next.1, style := l.style, events := next.2 } := by
  have hrun : Lexis.run Text.isBlank c.rest = 0 := by simp [hrest, Lexis.run, hd]
  simp [step, hrun, hend, region_prepare]

/-- A step takes some characters into the token and does nothing else to the cursor. -/
theorem exists_step_cursor (m : Mode) (h : Host) (c : Cursor) (s : State) :
    ∃ n, (m.step h c s).cursor = c.advance n := by
  simp only [step]
  split
  · exact ⟨_, rfl⟩
  · exact ⟨_, rfl⟩

theorem line_step (m : Mode) (h : Host) (c : Cursor) (s : State) :
    (m.step h c s).cursor.line = c.line := by
  obtain ⟨n, hn⟩ := m.exists_step_cursor h c s
  rw [hn, Cursor.line_advance]

/-- A step from a marked cursor that takes a character leaves less to read. -/
theorem rest_step_mark_lt {m : Mode} {h : Host} {c : Cursor} {s : State}
    (ht : (m.step h c.mark s).cursor.token ≠ []) :
    (m.step h c.mark s).cursor.rest.length < c.rest.length := by
  obtain ⟨n, hn⟩ := m.exists_step_cursor h c.mark s
  rw [hn] at ht ⊢
  exact Cursor.rest_advance_mark_lt ht

/-- Before the end of the line a step on a faithful host leaves less to read. -/
theorem rest_step_lt (m : Mode) (tabSize : Nat) {c : Cursor} (s : State) (hc : c.rest ≠ []) :
    (m.step (.faithful tabSize) c s).cursor.rest.length < c.rest.length := by
  simp only [step]
  split
  · rename_i h
    by_cases hb : Lexis.run Text.isBlank c.rest = 0
    · simp [hb, Host.faithful, hc] at h
    · exact Cursor.rest_advance_lt hc (by omega)
  · obtain ⟨d, t, ht⟩ := List.exists_cons_of_ne_nil hc
    refine Cursor.rest_advance_lt hc ?_
    rw [ht]
    exact Lexeme.read_size_pos ..

end Mode

end BraceMode
