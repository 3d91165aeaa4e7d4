import BraceMode.Step
import BraceMode.Suggestion
import BraceMode.Text.Lines

/-! Highlighting reads line after line and lists the tokens of each, with the column suggested for the line
before it was read. An empty line has no tokens and leaves the state alone. -/

namespace BraceMode

/-- A token of a line, with the byte offsets where it starts and stops. -/
structure Token where
  text : List Char
  style : Option Style
  start : Nat
  stop : Nat
  deriving DecidableEq, Repr

/-- The current token of a cursor. -/
def Cursor.toToken (c : Cursor) (style : Option Style) : Token :=
  let start := c.start
  ⟨c.token, style, start, start + Text.byteSize c.token⟩

/-- What reading on yields: the tokens in order, the state after them and everything that happened. -/
structure Reading where
  tokens : List Token := []
  cursor : Cursor
  state : State
  events : List Event := []

structure HighlightedLine where
  indent : Option Int
  tokens : List Token
  deriving DecidableEq, Repr

namespace Mode

/-- Reads tokens until the text is used up. A host that denies a step any progress ends the reading with
the token of that step. -/
def readAll (m : Mode) (h : Host) (c : Cursor) (s : State) : Reading :=
  if c.rest = [] then { cursor := c, state := s }
  else
    let next := m.step h c.mark s
    let token := next.cursor.toToken next.style
    if _ht : next.cursor.token = [] then
      { tokens := [token], cursor := next.cursor, state := next.state, events := next.events }
    else
      let more := m.readAll h next.cursor next.state
      { more with tokens := token :: more.tokens, events := next.events ++ more.events }
termination_by c.rest.length
decreasing_by exact rest_step_mark_lt _ht

/-- Reads one line with a host that answers from the line. -/
def readLine (m : Mode) (s : State) (t : List Char) : Reading :=
  m.readAll (.faithful m.tabSize) (.ofLine t) s

/-- The line as an editor shows it. -/
def highlightLine (m : Mode) (s : State) (t : List Char) : HighlightedLine :=
  ⟨m.suggest s t, (m.readLine s t).tokens⟩

/-- The lines in order, each read in the state that the ones before it leave. -/
def highlightFrom (m : Mode) (s : State) : List (List Char) → List HighlightedLine
  | [] => []
  | t :: ts =>
    let reading := m.readLine s t
    ⟨m.suggest s t, reading.tokens⟩ :: m.highlightFrom reading.state ts

/-- The state after the lines. -/
def feed (m : Mode) (s : State) (ts : List (List Char)) : State :=
  ts.foldl (fun s t => (m.readLine s t).state) s

def highlight (m : Mode) (t : List Char) : List HighlightedLine :=
  m.highlightFrom (m.start 0) (Text.lines t)

/-- On a faithful host the reading goes on until the text is used up. -/
theorem readAll_faithful (m : Mode) (tabSize : Nat) {c : Cursor} (s : State) (hc : c.rest ≠ []) :
    m.readAll (.faithful tabSize) c s =
      let next := m.step (.faithful tabSize) c.mark s
      let more := m.readAll (.faithful tabSize) next.cursor next.state
      { more with
        tokens := next.cursor.toToken next.style :: more.tokens
        events := next.events ++ more.events } := by
  have h : (m.step (.faithful tabSize) c.mark s).cursor.token ≠ [] := by
    obtain ⟨n, hn⟩ := m.exists_step_cursor (.faithful tabSize) c.mark s
    have hr := m.rest_step_lt tabSize (c := c.mark) s hc
    rw [hn] at hr ⊢
    exact Cursor.token_ne_nil_of_rest_lt hr
  conv => lhs; unfold readAll
  simp [hc, h]

theorem feed_append (m : Mode) (s : State) (us vs : List (List Char)) :
    m.feed s (us ++ vs) = m.feed (m.feed s us) vs :=
  List.foldl_append

theorem highlightFrom_cons (m : Mode) (s : State) (t : List Char) (ts : List (List Char)) :
    m.highlightFrom s (t :: ts) =
      m.highlightLine s t :: m.highlightFrom (m.readLine s t).state ts := rfl

@[simp] theorem readLine_nil (m : Mode) (s : State) :
    m.readLine s [] = { cursor := .ofLine [], state := s } := by
  unfold readLine readAll
  simp [Cursor.ofLine]

end Mode

end BraceMode
