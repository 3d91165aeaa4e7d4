import BraceMode.Layout.Frame
import BraceMode.Lexis.Region

/-! Trace events: what one reading step changed, in the order in which it happened. -/

namespace BraceMode

inductive Event where
  | switch (source target : Region)
  | push (kind : FrameKind) (column indented : Int)
  | pop (kind : FrameKind)
  deriving DecidableEq, Repr

namespace Event

def text : Event → String
  | .switch source target => "switching tokenizer from=" ++ source.name ++ " to=" ++ target.name
  | .push kind column indented =>
    "push context kind=" ++ kind.name ++ " column=" ++ toString column ++ " indented=" ++
      toString indented
  | .pop kind => "pop context kind=" ++ kind.name

/-- The switches of a walk from region `r` through the regions entered. -/
def switches (r : Region) : List Region → List Event
  | [] => []
  | next :: more => .switch r next :: switches next more

end Event

end BraceMode
