import BraceMode.Lexis.Punct

/-! Frames: one level of nesting each, with the indentation of the line that opened it, the column of its
bracket, and whether lines inside line up with that bracket. The alignment is pending until a token
follows the bracket on its line, or the line ends. -/

namespace BraceMode

/-- `label` is a brace frame whose current line starts a labelled branch. -/
inductive FrameKind where
  | top
  | brace
  | bracket
  | paren
  | label
  deriving DecidableEq, Repr

namespace FrameKind

def all : List FrameKind := [.top, .brace, .bracket, .paren, .label]

/-- The character that closes a frame of this kind. -/
def closer? : FrameKind → Option Char
  | .brace => some '}'
  | .bracket => some ']'
  | .paren => some ')'
  | .top | .label => none

/-- Whether closing the frame brings back the indentation it was opened with. -/
def restoresIndent : FrameKind → Bool
  | .brace | .bracket | .paren => true
  | .top | .label => false

def name : FrameKind → String
  | .top => "Top"
  | .brace => "Brace"
  | .bracket => "Bracket"
  | .paren => "Paren"
  | .label => "Case"

end FrameKind

namespace Punct

/-- The kind of frame that a bracket opens. -/
def opens? : Punct → Option FrameKind
  | .leftBrace => some .brace
  | .leftBracket => some .bracket
  | .leftParen => some .paren
  | _ => none

/-- Whether a bracket closes a frame of the given kind. -/
def closes : Punct → FrameKind → Bool
  | .rightBrace, .brace | .rightBracket, .bracket | .rightParen, .paren => true
  | _, _ => false

@[simp] theorem closes_top (p : Punct) : p.closes .top = false := by cases p <;> rfl

/-- The brackets that close a kind of frame and the characters that it is closed by are the same. -/
theorem closes_iff_closer? (p : Punct) (k : FrameKind) : p.closes k = true ↔ k.closer? = some p.char := by
  cases p <;> cases k <;> decide

end Punct

inductive Alignment where
  | pending
  | aligned
  | hanging
  deriving DecidableEq, Repr

namespace Alignment

/-- Only a settled `aligned` counts: a pending frame indents as a hanging one. -/
def isAligned (a : Alignment) : Bool := a == .aligned

/-- Settles a pending alignment. -/
def settle (a final : Alignment) : Alignment := if a = .pending then final else a

def name : Alignment → String
  | .pending => "Unknown"
  | .aligned => "Aligned"
  | .hanging => "Unaligned"

end Alignment

structure Frame where
  indented : Int
  column : Int
  kind : FrameKind
  alignment : Alignment
  deriving DecidableEq, Repr

namespace Frame

/-- A frame just opened: nothing has followed its bracket yet. -/
def opened (indented column : Int) (kind : FrameKind) : Frame := ⟨indented, column, kind, .pending⟩

/-- The frame around a whole buffer. -/
def root (indented : Int) : Frame := ⟨indented, 0, .top, .hanging⟩

/-- A new line settles a pending alignment as hanging and ends a labelled line. -/
def startLine (f : Frame) : Frame :=
  { f with
    kind := if f.kind = .label then .brace else f.kind
    alignment := f.alignment.settle .hanging }

/-- A token behind the bracket settles a pending alignment as aligned. -/
def align (f : Frame) : Frame := { f with alignment := f.alignment.settle .aligned }

@[simp] theorem startLine_startLine (f : Frame) : f.startLine.startLine = f.startLine := by
  obtain ⟨indented, column, kind, alignment⟩ := f
  cases kind <;> cases alignment <;> rfl

end Frame

end BraceMode
