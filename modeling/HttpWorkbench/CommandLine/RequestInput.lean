import HttpWorkbench.CommandLine.Command
import HttpWorkbench.CommandLine.Session
import HttpWorkbench.Environment.Document
import HttpWorkbench.Request.Document
import HttpWorkbench.Request.HeaderArgument
import HttpWorkbench.Settings.Basic

/-!
# The request of a command

The request that a command works on comes from a file, from the standard input or from options
alone; options override what a document says. The environments come from the file that the
options or the settings name.
-/

namespace HttpWorkbench.CommandLine

/-- A text that is given and not empty. -/
def given? (s : Option Text) : Option Text := s.filter (· ≠ "")

/-- A loading failure as the command tells it. -/
def loadingFailure : Failure → Failure
  | .request reason => .command (.notLoaded (Failure.request reason).message)
  | .requestFileNotFound path =>
    .command (.notLoaded (Failure.requestFileNotFound path).message)
  | failure => failure

/-- The request that the options start from. -/
def baseRequest (o : RequestOptions) (input : Text) (files : Files) (supply : Supply) :
    Result (SavedRequest × Supply) :=
  match given? o.file, o.fromInput, given? o.url with
  | some file, _, _ => (SavedRequest.load files (.ofText file) supply).mapError loadingFailure
  | none, true, _ => (SavedRequest.ofStream input "<stdin>" supply).mapError loadingFailure
  | none, false, some url =>
    SavedRequest.make [(.str "method", .str "GET"), (.str "url", .str url)] supply
  | none, false, none => .error (.command .inputRequired)

/-- Headers with others put over them. -/
def overlayHeaders (headers : Value) (table : List (Text × Text)) : Value :=
  match headers with
  | .map entries => .map (Assoc.putAll entries (table.map fun (k, v) => (.str k, .str v)))
  | other => other

/-- A request with what the options override. -/
def override (o : RequestOptions) (r : SavedRequest) : Result SavedRequest := do
  let table ← HeaderArgument.tableOfValue (.list o.headers)
  .ok { r with
    method := ((given? o.method).map Value.str).getD r.method
    url := ((given? o.url).map Value.str).getD r.url
    headers := overlayHeaders r.headers table
    body := o.body.getD r.body }

/-- The request that the options describe. -/
def describedRequest (around : Surroundings) (o : RequestOptions) : Action SavedRequest := do
  let s ← get
  let (r, supply) ← Action.ofResult (baseRequest o around.input s.files s.supply)
  set { s with supply }
  Action.ofResult (override o r)

/-- The environments that the options or the settings name. -/
def environmentsIn (o : RequestOptions) (settings : Settings) (files : Files) :
    Result (Option EnvironmentStore) := do
  let file := (Value.ofText? o.environmentFile).orElse settings.environmentFile
  if !file.isTrue then .ok none
  else
    let path ← Path.ofValue file
    let store ← EnvironmentStore.load files path
    let active := (Value.ofText? o.environment).orElse settings.activeEnvironment
    if active.isTrue then (store.activate active).map some else .ok (some store)

/-- A failure with environments as the command tells it. -/
def environmentFailure : Failure → Failure
  | .environment reason => .command (.environment (Failure.environment reason).message)
  | failure => failure

/-- The environments of a command. -/
def loadEnvironments (o : RequestOptions) (settings : Settings) :
    Action (Option EnvironmentStore) := do
  let s ← get
  Action.ofResult ((environmentsIn o settings s.files).mapError environmentFailure)

end HttpWorkbench.CommandLine
