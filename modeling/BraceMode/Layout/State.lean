import BraceMode.Layout.Event
import BraceMode.Layout.Nesting
import BraceMode.Lexis.Lexeme

/-! The state carried from token to token and from line to line: the region, the open frames, and the
indentation that a bracket opened now would remember. A mark changes the frames in one of four ways, and
only the frame on top is ever touched. -/

namespace BraceMode

/-- Columns above this one are kept as this one. -/
def maxColumn : Nat := 2147483647

def clampColumn (n : Nat) : Int := (min n maxColumn : Nat)

/-- A sum of columns, as a word of 32 bits with a sign holds it. -/
def wrapColumn (x : Int) : Int := x.bmod 4294967296

/-- Whether a column fits into such a word. -/
def HoldsColumn (x : Int) : Prop := -(maxColumn : Int) - 1 ≤ x ∧ x ≤ maxColumn

instance (x : Int) : Decidable (HoldsColumn x) := inferInstanceAs (Decidable (_ ∧ _))

theorem wrapColumn_of_holds {x : Int} (h : HoldsColumn x) : wrapColumn x = x := by
  unfold HoldsColumn maxColumn at h
  exact Int.bmod_eq_of_le (by omega) (by omega)

/-- A sum that wraps around at the upper end becomes a negative column. -/
theorem wrapColumn_of_lt {x : Int} (h : (maxColumn : Int) < x) (hle : x ≤ 2 * (maxColumn : Int) + 1) :
    wrapColumn x = x - 4294967296 := by
  unfold maxColumn at h hle
  rw [wrapColumn, ← Int.sub_bmod_right]
  exact Int.bmod_eq_of_le (by omega) (by omega)

/-- A sum may wrap around at every step, or at its end only. -/
theorem wrapColumn_wrapColumn_add (x y : Int) : wrapColumn (wrapColumn x + y) = wrapColumn (x + y) :=
  Int.bmod_add_bmod

theorem wrapColumn_le {x : Int} (h : -(maxColumn : Int) - 1 ≤ x) : wrapColumn x ≤ x := by
  have hwrap := Int.bmod_eq_emod x 4294967296
  unfold maxColumn at h
  unfold wrapColumn
  split at hwrap <;> omega

/-- No sum with less than a whole word wraps around to where it started. -/
theorem wrapColumn_add_ne {n : Nat} (hpos : 0 < n) (hlt : n < 4294967296) (x : Int) :
    wrapColumn (x + n) ≠ x := by
  have hwrap := Int.bmod_eq_self_sub_mul_bdiv (x + n) 4294967296
  unfold wrapColumn
  omega

/-- `fresh` holds until the first token of the current line has been read. -/
structure State where
  region : Region := .code
  nesting : Nesting
  indented : Int := 0
  fresh : Bool := true
  deriving DecidableEq, Repr

/-- What a mark does to the open frames. -/
inductive Change where
  | push (kind : FrameKind)
  | pop
  | relabel
  | keep
  deriving DecidableEq, Repr

/-- A bracket opens a frame, or closes a top frame of its own kind; any other punctuation, an unmatched
closer included, keeps the frames as they are. -/
def Mark.change (innermost : FrameKind) : Mark → Change
  | .label => .relabel
  | .punct p =>
    match p.opens? with
    | some kind => .push kind
    | none => if p.closes innermost then .pop else .keep

namespace State

/-- The state of a buffer that has read nothing. -/
def start (rootIndent : Int) : State := { nesting := { root := .root rootIndent } }

/-- A line starts with the given indentation. -/
def startLine (indentation : Int) (s : State) : State :=
  { s with nesting := s.nesting.modifyTop .startLine, indented := indentation, fresh := true }

def enter (regions : List Region) (s : State) : State :=
  { s with region := regions.getLastD s.region }

/-- A token that is no comment stands behind the bracket of the top frame. -/
def align (s : State) : State := { s with nesting := s.nesting.modifyTop .align }

/-- Applies a change for a token that starts at `column`. -/
def apply (column : Int) (s : State) : Change → State
  | .push kind => { s with nesting := s.nesting.push (.opened s.indented column kind) }
  | .pop =>
    match s.nesting.pop? with
    | none => s
    | some (f, rest) =>
      { s with nesting := rest, indented := if f.kind.restoresIndent then f.indented else s.indented }
  | .relabel => { s with nesting := s.nesting.modifyTop fun f => { f with kind := .label } }
  | .keep => s

/-- The events of a change, as seen from the state before it. -/
def events (column : Int) (s : State) : Change → List Event
  | .push kind => [.push kind column s.indented]
  | .pop => (s.nesting.pop?.map fun popped => Event.pop popped.1.kind).toList
  | .relabel | .keep => []

/-- The change that a mark, if there is one, makes to the top frame. -/
def change (s : State) (mark : Option Mark) : Change :=
  (mark.map (Mark.change s.nesting.top.kind)).getD .keep

end State

end BraceMode
