import BraceMode.Capabilities
import BraceMode.Tool.Script

/-! The `capabilities` command: the editor hints, then a line for each character asked about. -/

namespace BraceMode.Tool

/-- The fixed part of the report. -/
def hintLines (k : Capabilities) : List String :=
  let electric := k.electricChars.toList.map Char.toString
  let pairs := k.pairs.map fun p => String.ofList [p.1, p.2]
  ["electric:      " ++ String.intercalate " " electric,
   "auto-close:    " ++ String.intercalate " " pairs,
   "fold:          " ++ k.fold,
   "line comment:  " ++ k.commentLine "text",
   "block comment: " ++ k.blockComment "text"]

def charLine (k : Capabilities) (c : Char) : String :=
  let closer := ((k.closerOf? c).map Char.toString).getD "-"
  c.toString ++ ": electric=" ++ toString (k.isElectric c) ++ " closes=" ++ closer

def capabilitiesCommand (k : Capabilities) (verbose : Bool) (chars : List Char) : Script Unit := do
  (hintLines k ++ chars.map (charLine k)).forM fun line => Script.puts (line ++ "\n").toList
  Script.noteIf verbose (.listedCapabilities chars.length)

end BraceMode.Tool
