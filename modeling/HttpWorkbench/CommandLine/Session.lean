import HttpWorkbench.Clock.Timestamp
import HttpWorkbench.CommandLine.Screen
import HttpWorkbench.Export.Registry
import HttpWorkbench.Sending.Exchange
import HttpWorkbench.Storage.Files

/-!
# Sessions

What a command finds around it, and what it changes: files, consoles, and the calls that a
transport was asked to make. A command that fails leaves what it changed before.
-/

namespace HttpWorkbench.CommandLine

/-- What a command finds around it. -/
structure Surroundings where
  registry : Export.Registry
  /-- How the transport answers. -/
  outcome : Outcome
  /-- The standard input. -/
  input : Text
  /-- Whether results go to a terminal. -/
  isTerminal : Bool

/-- What commands change. -/
structure Session where
  files : Files
  supply : Supply
  /-- What was shown, in order. -/
  shown : List (Console × Display)
  /-- What was written to the standard output as it is. -/
  output : Text
  calls : List Call

/-- Nothing shown or sent yet. -/
def Session.start (files : Files) (supply : Supply) : Session where
  files := files
  supply := supply
  shown := []
  output := ""
  calls := []

/-- A step of a command. -/
abbrev Action (α : Type) := ExceptT Failure (StateM Session) α

namespace Action

/-- A result as a step. -/
def ofResult (r : Result α) : Action α := ExceptT.mk (pure r)

/-- Show something. -/
def «show» (console : Console) (d : Display) : Action Unit :=
  modify fun s => { s with shown := s.shown ++ [(console, d)] }

/-- Show a text as a result. -/
def say (s : Text) : Action Unit := «show» .out (.text s)

/-- Show a text as a diagnostic. -/
def warn (s : Text) : Action Unit := «show» .err (.text s)

/-- Write a text to the standard output. -/
def write (text : Text) : Action Unit :=
  modify fun s => { s with output := s.output ++ text }

/-- Do something that changes the files and may fail. -/
def changeFiles (change : Files → Files × Result Unit) : Action Unit := do
  let s ← get
  let (files, result) := change s.files
  set { s with files }
  ofResult result

/-- A step and its outcome, whether it fails or not. -/
def attempt (a : Action α) : Action (Result α) :=
  ExceptT.mk (a.run >>= fun r => pure (.ok r))

end Action

end HttpWorkbench.CommandLine
