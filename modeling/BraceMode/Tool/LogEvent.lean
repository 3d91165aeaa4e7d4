/-! What the tool reports about its own run, beside its output. -/

namespace BraceMode.Tool

inductive LogEvent where
  | loadedConfiguration (path : String)
  | readingSource (path : String)
  | tokenized (path : String) (tokens : Nat)
  | checkedIndentation (path : String) (mismatches : Nat)
  | reindented (path : String) (changed : Nat)
  | listedCapabilities (queried : Nat)
  | tokensDone (tokens : Nat)
  | linesDiffer (mismatches : Nat)
  | reindentDone (changed : Nat)
  | capabilitiesDone
  deriving DecidableEq, Repr

namespace LogEvent

/-- Whether the event shows only in a verbose log. -/
def isDebug : LogEvent → Bool
  | .reindented .. | .linesDiffer _ | .reindentDone _ => false
  | _ => true

def text : LogEvent → String
  | .loadedConfiguration path => "loaded configuration path=" ++ path
  | .readingSource path => "reading source path=" ++ path
  | .tokenized path n => "tokenized file path=" ++ path ++ " tokens=" ++ toString n
  | .checkedIndentation path n =>
    "checked indentation path=" ++ path ++ " mismatches=" ++ toString n
  | .reindented path n => "re-indented path=" ++ path ++ " changed=" ++ toString n
  | .listedCapabilities n => "listed capabilities queried=" ++ toString n
  | .tokensDone n => "done command=\"tokens\" tokens=" ++ toString n
  | .linesDiffer n =>
    "lines differ from the suggested indentation command=\"indent\" mismatches=" ++ toString n
  | .reindentDone n => "done command=\"reindent\" changed=" ++ toString n
  | .capabilitiesDone => "done command=\"capabilities\""

/-- The event with its level, as a log line shows it. -/
def line (e : LogEvent) : String := (if e.isDebug then "DEBUG " else "INFO ") ++ e.text

end LogEvent

end BraceMode.Tool
