import BraceMode.Layout.Frame

/-! The open frames. The root stands apart from the frames inside it, so it is never closed and there is
always a top. -/

namespace BraceMode

/-- `inner` lists the frames inside the root, innermost first. -/
structure Nesting where
  root : Frame
  inner : List Frame := []
  deriving DecidableEq, Repr

namespace Nesting

def top (n : Nesting) : Frame := n.inner.headD n.root

def modifyTop (n : Nesting) (f : Frame → Frame) : Nesting :=
  match n.inner with
  | [] => { n with root := f n.root }
  | x :: xs => { n with inner := f x :: xs }

def push (n : Nesting) (f : Frame) : Nesting := { n with inner := f :: n.inner }

/-- The innermost frame and the nesting without it; none when only the root is open. -/
def pop? (n : Nesting) : Option (Frame × Nesting) :=
  match n.inner with
  | [] => none
  | x :: xs => some (x, { n with inner := xs })

/-- The number of open frames, root included. -/
def depth (n : Nesting) : Nat := n.inner.length + 1

/-- Root first. -/
def toList (n : Nesting) : List Frame := n.root :: n.inner.reverse

@[simp] theorem top_push (n : Nesting) (f : Frame) : (n.push f).top = f := rfl

@[simp] theorem pop?_push (n : Nesting) (f : Frame) : (n.push f).pop? = some (f, n) := rfl

@[simp] theorem top_modifyTop (n : Nesting) (f : Frame → Frame) : (n.modifyTop f).top = f n.top := by
  cases n with
  | mk root inner => cases inner <;> rfl

@[simp] theorem depth_modifyTop (n : Nesting) (f : Frame → Frame) :
    (n.modifyTop f).depth = n.depth := by
  cases n with
  | mk root inner => cases inner <;> rfl

theorem modifyTop_modifyTop (n : Nesting) (f g : Frame → Frame) :
    (n.modifyTop f).modifyTop g = n.modifyTop fun x => g (f x) := by
  cases n with
  | mk root inner => cases inner <;> rfl

@[simp] theorem startLine_startLine (n : Nesting) :
    (n.modifyTop .startLine).modifyTop .startLine = n.modifyTop .startLine := by
  simp only [modifyTop_modifyTop, Frame.startLine_startLine]

/-- What a change of the top frame keeps of every frame, it keeps of the frames inside the root. -/
theorem map_inner_modifyTop {α : Type} (n : Nesting) {f : Frame → Frame} {g : Frame → α}
    (h : ∀ x, g (f x) = g x) : (n.modifyTop f).inner.map g = n.inner.map g := by
  cases n with
  | mk root inner =>
    cases inner with
    | nil => rfl
    | cons x xs => simp [modifyTop, h]

@[simp] theorem depth_push (n : Nesting) (f : Frame) : (n.push f).depth = n.depth + 1 := rfl

theorem toList_push (n : Nesting) (f : Frame) : (n.push f).toList = n.toList ++ [f] := by
  simp [toList, push]

end Nesting

end BraceMode
