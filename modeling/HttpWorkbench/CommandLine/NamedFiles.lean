import HttpWorkbench.CommandLine.Command
import HttpWorkbench.Settings.Document

/-!
# Named files

The files that a command line names, by itself or through its settings. No command reads or writes
any other file.
-/

namespace HttpWorkbench

namespace CommandLine

/-- The files that the options of a request name. -/
def RequestOptions.fileNames (o : RequestOptions) : List Text :=
  o.file.toList ++ o.environmentFile.toList

/-- The files that a command names. -/
def Command.fileNames : Command → List Text
  | .exportProgram o => o.request.fileNames ++ o.output.toList
  | .languages _ => []
  | .send o => o.request.fileNames ++ o.historyFile.toList
  | .history o => o.historyFile.toList

/-- Whether a command reads the standard input. -/
def Command.readsInput : Command → Bool
  | .exportProgram o => o.request.fromInput
  | .send o => o.request.fromInput
  | .languages _ => false
  | .history _ => false

namespace Invocation

/-- The files that an invocation names by itself. -/
def files (invocation : Invocation) : List Path :=
  (invocation.settingsFile.toList ++ (invocation.command.map Command.fileNames).getD []).map
    Path.ofText

/-- Whether the invocation reads the standard input. -/
def readsInput (invocation : Invocation) : Bool := invocation.command.any Command.readsInput

end Invocation

end CommandLine

/-- The files that settings name. -/
def Settings.files (s : Settings) : List Path :=
  [s.environmentFile, s.historyFile].filterMap fun v => (Path.ofValue v).toOption

end HttpWorkbench
