import BraceMode.Highlight

/-! An editing session: one state, at most one open line, and states saved under names. A request asks for
one thing, and the answer comes with the events it caused. -/

namespace BraceMode

structure Session where
  state : State
  opened : Option (Host × Cursor) := none
  slots : List (String × State) := []

namespace Session

inductive Request where
  | start (base : Int)
  | line (text : List Char)
  | indent (text : List Char)
  | openLine (text : List Char) (tabSize : Option Nat) (pins : Host.Pins)
  | token
  | tokenKeepingStart
  | skip
  | drain
  | save (slot : String)
  | load (slot : String)
  | same (slot : String)
  | dump

inductive Answer where
  | silent
  | line (l : HighlightedLine)
  | indent (column : Option Int)
  | token (t : Token)
  | tokens (ts : List Token)
  | char (c : Option Char)
  | same (b : Bool)
  | stack (frames : List Frame)

structure Reply where
  answer : Answer := .silent
  events : List Event := []
  session : Session

/-- The reply to one step on the open line. -/
def ofStep (σ : Session) (h : Host) (s : Step) : Reply where
  answer := .token (s.cursor.toToken s.style)
  events := s.events
  session := { σ with state := s.state, opened := some (h, s.cursor) }

/-- Answers one request; none when it names a line or a slot that is not there. -/
def handle (m : Mode) (σ : Session) : Request → Option Reply
  | .start base => some { session := { σ with state := m.start base } }
  | .line t =>
    let reading := m.readLine σ.state t
    some {
      answer := .line ⟨m.suggest σ.state t, reading.tokens⟩
      events := reading.events
      session := { σ with state := reading.state } }
  | .indent t => some { answer := .indent (m.suggest σ.state t), session := σ }
  | .openLine t tabSize pins =>
    let host := (Host.faithful (tabSize.getD m.tabSize)).pin pins
    some { session := { σ with opened := some (host, .ofLine t) } }
  | .token => σ.opened.map fun (h, c) => σ.ofStep h (m.step h c.mark σ.state)
  | .tokenKeepingStart => σ.opened.map fun (h, c) => σ.ofStep h (m.step h c σ.state)
  | .skip => σ.opened.map fun (h, c) =>
      { answer := .char c.rest.head?, session := { σ with opened := some (h, c.advance 1) } }
  | .drain => σ.opened.map fun (h, c) =>
      let reading := m.readAll h c σ.state
      { answer := .tokens reading.tokens
        events := reading.events
        session := { σ with state := reading.state, opened := some (h, reading.cursor) } }
  | .save slot => some { session := { σ with slots := (slot, σ.state) :: σ.slots } }
  | .load slot => (σ.slots.lookup slot).map fun s => { session := { σ with state := s } }
  | .same slot => (σ.slots.lookup slot).map fun s => { answer := .same (s == σ.state), session := σ }
  | .dump => some { answer := .stack σ.state.nesting.toList, session := σ }

end Session

end BraceMode
