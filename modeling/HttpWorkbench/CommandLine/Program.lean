import HttpWorkbench.CommandLine.LanguagesCommand
import HttpWorkbench.CommandLine.SendCommand
import HttpWorkbench.Log.Level
import HttpWorkbench.Settings.Document

/-!
# The program

A command line is read, the settings are loaded, and the command is run. Failures that a user can
mend are shown and end the program with a code; any other failure is the result.
-/

namespace HttpWorkbench.CommandLine

/-- The version of the program. -/
def version : Text := "0.1.0"

/-- How the program ends. -/
inductive Ending where
  | code (n : Nat)
  /-- After showing what the program or a command takes. -/
  | helped (n : Nat)
  | refused (fault : UsageFault)
  deriving DecidableEq, Repr

/-- The code with which the program ends. -/
def Ending.exitCode : Ending → Nat
  | .code n => n
  | .helped n => n
  | .refused _ => 2

/-- What is shown when no command is named. -/
def quickStart : Display :=
  .panel "💡 Quick Start"
    ("[bold]Export:[/bold] request-explorer codegen [dim]request.json[/dim] -l " ++
      "[cyan]python[/cyan]\n[bold]Send:[/bold] request-explorer send [dim]request.json[/dim]")

/-- Run a command. -/
def runCommand (around : Surroundings) (settings : Settings) : Command → Action Nat
  | .exportProgram o => runExport around settings o
  | .languages info => runLanguages around info
  | .send o => runSend around settings o
  | .history o => runHistory settings o

/-- Run a command and tell the failures that a user can mend. -/
def guarded (run : Action Nat) : Action Nat := do
  let result ← Action.attempt run
  match result with
  | .ok code => pure code
  | .error (.command reason) =>
    Action.warn ("❌ [red]" ++ reason.message ++ "[/red]")
    pure 1
  | .error (.history reason) =>
    Action.warn ("❌ [red]" ++ reason.message ++ "[/red]")
    pure 1
  | .error (.interrupted _) =>
    Action.warn "\n[yellow]Interrupted[/yellow]"
    pure 130
  | .error failure => throw failure

/-- Carry out an invocation with its settings. -/
def carryOut (around : Surroundings) (invocation : Invocation) (settings : Settings) :
    Action Ending := do
  let _ ← Action.ofResult
    (Log.threshold ((Value.ofText? invocation.logLevel).orElse settings.logLevel))
  match invocation.command with
  | none =>
    Action.show .out quickStart
    pure (.helped 1)
  | some command =>
    let code ← guarded (runCommand around settings command)
    pure (.code code)

/-- Load the settings and carry out an invocation. -/
def invoke (around : Surroundings) (invocation : Invocation) : Action Ending := do
  let s ← get
  match Settings.load s.files .null (Value.ofText? invocation.settingsFile) with
  | .ok settings => carryOut around invocation settings
  | .error (.settings reason) =>
    Action.warn ("❌ [red]Configuration error: " ++ reason.message ++ "[/red]")
    pure (.code 1)
  | .error failure => throw failure

/-- Run the program on a command line. -/
def program (around : Surroundings) (arguments : List Text) : Action Ending :=
  match Invocation.read arguments with
  | .ok invocation => invoke around invocation
  | .error .help => pure (.helped 0)
  | .error .version => do
    Action.write ("request-explorer " ++ version ++ "\n")
    pure (.code 0)
  | .error (.fault fault) => pure (.refused fault)

/-- Run the program in a session. -/
def run (around : Surroundings) (arguments : List Text) (s : Session) :
    Result Ending × Session :=
  (program around arguments).run.run s

end HttpWorkbench.CommandLine
