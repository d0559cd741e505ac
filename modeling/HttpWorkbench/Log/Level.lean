import HttpWorkbench.Value.Access
import HttpWorkbench.Value.Text

/-!
# Log levels

The threshold below which log records are dropped, given by name or by number, and the place of
a component's log below that of the program.
-/

namespace HttpWorkbench.Log

/-- The names of thresholds, capital letters only. -/
def levels : List (Text × Int) :=
  [("CRITICAL", 50), ("FATAL", 50), ("ERROR", 40), ("WARN", 30), ("WARNING", 30), ("INFO", 20),
    ("DEBUG", 10), ("NOTSET", 0)]

/-- The threshold of a name, case aside; an unknown name means warnings. -/
def levelOfName (name : Text) : Int := (Assoc.get? (Text.upper name) levels).getD 30

/-- The threshold that a value stands for: a name's, or the number itself. -/
def threshold (level : Value) : Result Value :=
  match level with
  | .str name => .ok (.int (levelOfName name))
  | .int _ => .ok level
  | .bool _ => .ok level
  | v => misused (.notLevel v.quoted)

/-- The name of the program's own log. -/
def rootName : Text := "request_explorer"

/-- The name of a component's log, which lies below the program's. -/
def nameBelowRoot (name : Text) : Text :=
  if name = rootName || (rootName ++ ".").isPrefixOf name then name else rootName ++ "." ++ name

/-- The name of the log for a component that a value names. -/
def componentName : Value → Result Text
  | .str name => .ok (nameBelowRoot name)
  | .bytes _ => misused .bytesPrefixNeeded
  | v => misused (.noAttribute v.kindName "startswith")

end HttpWorkbench.Log
