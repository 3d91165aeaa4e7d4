import BraceMode.Mode
import BraceMode.Text.Blank

/-! Indentation suggestions. The column for a line depends on the frame on top and on what the line starts
with: its own closer goes back to where the frame was opened, anything else goes one unit further in.
Inside a literal or a comment there is no suggestion. -/

namespace BraceMode

/-- Whether a text starts with a label word that ends there. -/
def startsWithLabel (t : List Char) : Bool :=
  Vocabulary.labels.any fun word =>
    word.toList.isPrefixOf t && !(t.drop word.toList.length).head?.any Lexis.isWordChar

namespace Frame

/-- Whether a text starts with the character that closes the frame. -/
def closedBy (f : Frame) (t : List Char) : Bool := f.kind.closer?.isSome && t.head? == f.kind.closer?

/-- The column that the frame gives to a line that closes it. -/
def anchor (f : Frame) : Int := if f.alignment.isAligned then f.column else f.indented

/-- The column that the frame gives to a line with content `t`. -/
def columnFor (f : Frame) (unit : Int) (t : List Char) : Int :=
  if f.kind = .label ∧ startsWithLabel t = true then f.indented
  else if f.closedBy t then f.anchor
  else wrapColumn (f.anchor + unit)

/-- The anchor is one of the two columns of the frame. -/
theorem anchor_of_both {P : Int → Prop} {f : Frame} (hindented : P f.indented) (hcolumn : P f.column) :
    P f.anchor := by
  unfold anchor
  split
  · exact hcolumn
  · exact hindented

theorem columnFor_of_not_label {f : Frame} {t : List Char}
    (h : ¬(f.kind = .label ∧ startsWithLabel t = true)) (unit : Int) :
    f.columnFor unit t = if f.closedBy t then f.anchor else wrapColumn (f.anchor + unit) := if_neg h

end Frame

/-- The column suggested for the line `t`; its own leading blanks do not matter. -/
def Mode.suggest (m : Mode) (s : State) (t : List Char) : Option Int :=
  if s.region = .code then some (s.nesting.top.columnFor m.indentUnit (Text.trimStart t)) else none

theorem Mode.suggest_trimStart (m : Mode) (s : State) (t : List Char) :
    m.suggest s (Text.trimStart t) = m.suggest s t := by
  simp [suggest, Text.trimStart_trimStart]

end BraceMode
