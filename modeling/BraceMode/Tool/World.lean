import BraceMode.Text.Utf8

/-! What a run can see of the outside: what each path leads to, the places where a configuration may lie,
and the variables of its environment. -/

namespace BraceMode.Tool

inductive FileNode where
  | file (bytes : List UInt8)
  | directory
  deriving DecidableEq, Repr

structure World where
  find? : String → Option FileNode
  configPlaces : List String := []
  environment? : String → Option String := fun _ => none

namespace World

def isPresent (w : World) (path : String) : Bool := (w.find? path).isSome

/-- The text of a file; none when it cannot be read as text. -/
def text? (w : World) (path : String) : Option (List Char) :=
  match w.find? path with
  | some (.file bytes) => Text.decode? bytes
  | _ => none

end World

end BraceMode.Tool
