import BraceMode.Lexis.CharClass
import BraceMode.Text.Column
import BraceMode.Text.Utf8

/-! A cursor in one line. It holds the line in three parts, before the current token, the token so far and
what is left, so it always stands between two characters and the parts always make up the line. Offsets
are byte offsets, read off the parts. -/

namespace BraceMode

/-- `passed` lists what stands before the token backwards, the nearest character first. -/
structure Cursor where
  passed : List Char := []
  token : List Char := []
  rest : List Char
  deriving DecidableEq, Repr

namespace Cursor

def ofLine (t : List Char) : Cursor := { rest := t }

def line (c : Cursor) : List Char := c.passed.reverse ++ c.token ++ c.rest

/-- The byte offset where the current token starts. -/
def start (c : Cursor) : Nat := Text.byteSize c.passed

/-- The byte offset of the cursor. -/
def pos (c : Cursor) : Nat := c.start + Text.byteSize c.token

/-- The current token starts here. -/
def mark (c : Cursor) : Cursor := ⟨c.token.reverse ++ c.passed, [], c.rest⟩

/-- Takes up to `n` characters into the token. -/
def advance (c : Cursor) (n : Nat) : Cursor :=
  { c with token := c.token ++ c.rest.take n, rest := c.rest.drop n }

/-- The byte offset `n` bytes further on, as a word holds it, or the end of the line. -/
def offsetAfter (c : Cursor) (n : Nat) : Nat := min (Text.wrapWord (c.pos + n)) (Text.byteSize c.line)

/-- The cursor at a byte offset of its line; none when the token cannot end there, before its own start or
inside a character. -/
def moveTo? (c : Cursor) (offset : Nat) : Option Cursor :=
  let ahead := c.token ++ c.rest
  if c.start ≤ offset then
    (Text.dropBytes? (offset - c.start) ahead).map fun rest =>
      { c with token := ahead.take (ahead.length - rest.length), rest }
  else none

/-- One thing a host may ask a cursor to do. -/
inductive Move where
  | next
  | peek
  | eat (c : Char)
  | eatWhile (p : Char → Bool)
  | eatText (t : List Char)
  | advanceBytes (n : Nat)
  | skipToEnd
  | mark

/-- What a move answers. -/
inductive Answer where
  | char (c : Option Char)
  | flag (b : Bool)
  | silent

/-- How many characters a move takes that is not told where to go. -/
def Move.size (rest : List Char) : Move → Nat
  | .next => 1
  | .peek | .mark | .advanceBytes _ => 0
  | .eat c => if rest.head? = some c then 1 else 0
  | .eatWhile p => Lexis.run p rest
  | .eatText t => if t.isPrefixOf rest then t.length else 0
  | .skipToEnd => rest.length

/-- The answer of a move: the next character, or whether the move took any. -/
def Move.answer (rest : List Char) (m : Move) : Answer :=
  match m with
  | .next | .peek => .char rest.head?
  | .eat _ | .eatWhile _ | .eatText _ => .flag (m.size rest != 0)
  | .advanceBytes _ | .skipToEnd | .mark => .silent

/-- Makes a move; none when it leaves the cursor where it cannot be. -/
def perform? (c : Cursor) : Move → Option (Answer × Cursor)
  | .mark => some (.silent, c.mark)
  | .advanceBytes n => (c.moveTo? (c.offsetAfter n)).map fun d => (.silent, d)
  | m => some (m.answer c.rest, c.advance (m.size c.rest))

@[simp] theorem line_ofLine (t : List Char) : (ofLine t).line = t := rfl

@[simp] theorem line_mark (c : Cursor) : c.mark.line = c.line := by simp [line, mark]

@[simp] theorem rest_mark (c : Cursor) : c.mark.rest = c.rest := rfl

@[simp] theorem line_advance (c : Cursor) (n : Nat) : (c.advance n).line = c.line := by
  simp [line, advance]

@[simp] theorem advance_zero (c : Cursor) : c.advance 0 = c := by simp [advance]

theorem rest_advance_lt {c : Cursor} {n : Nat} (h : c.rest ≠ []) (hn : 0 < n) :
    (c.advance n).rest.length < c.rest.length := by
  have := List.length_pos_iff.mpr h
  simp only [advance, List.length_drop]
  omega

/-- A marked cursor whose token has grown has less to read. -/
theorem rest_advance_mark_lt {c : Cursor} {n : Nat} (h : (c.mark.advance n).token ≠ []) :
    (c.mark.advance n).rest.length < c.rest.length := by
  simp only [advance, mark, List.nil_append, ne_eq, List.take_eq_nil_iff, not_or] at h ⊢
  have := List.length_pos_iff.mpr h.2
  rw [List.length_drop]
  omega

/-- A marked cursor that has less to read has a token. -/
theorem token_ne_nil_of_rest_lt {c : Cursor} {n : Nat}
    (h : (c.mark.advance n).rest.length < c.rest.length) : (c.mark.advance n).token ≠ [] := by
  simp only [advance, mark, List.nil_append, ne_eq, List.take_eq_nil_iff, List.length_drop] at h ⊢
  rintro (rfl | hr)
  · omega
  · simp [hr] at h

end Cursor

/-- The four questions about the line that the reader leaves to its host. -/
structure Host where
  atLineStart : Cursor → Bool
  atLineEnd : Cursor → Bool
  column : Cursor → Nat
  indentation : Cursor → Nat

namespace Host

/-- The host that answers from the line itself. -/
def faithful (tabSize : Nat) : Host where
  atLineStart c := c.passed.isEmpty && c.token.isEmpty
  atLineEnd c := c.rest.isEmpty
  column c := Text.width tabSize c.passed.reverse
  indentation c := Text.indentation tabSize c.line

/-- Answers that a host fixes beforehand. -/
structure Pins where
  atLineStart : Option Bool := none
  atLineEnd : Option Bool := none
  column : Option Nat := none
  indentation : Option Nat := none

/-- The same host except where an answer is pinned. -/
def pin (h : Host) (p : Pins) : Host where
  atLineStart c := p.atLineStart.getD (h.atLineStart c)
  atLineEnd c := p.atLineEnd.getD (h.atLineEnd c)
  column c := p.column.getD (h.column c)
  indentation c := p.indentation.getD (h.indentation c)

end Host

end BraceMode
