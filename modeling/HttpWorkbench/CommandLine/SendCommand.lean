import HttpWorkbench.CommandLine.HistoryCommand
import HttpWorkbench.Sending.Service

/-!
# Sending from the command line

A request is sent, the response shown, and the exchange recorded in the history file. The file is
saved whatever comes of the exchange.
-/

namespace HttpWorkbench.CommandLine

/-- Whether a failure is that of the exchange, which the command tells by itself. -/
def isSendFailure : Failure → Bool
  | .send _ => true
  | .timedOut _ _ => true
  | _ => false

/-- The type of the content that headers tell: the value of the first that is named so, case
aside. -/
def contentTypeIn : List (Value × Value) → Result Value
  | [] => .ok (.str "")
  | (k, v) :: rest => do
    let name ← k.lowered
    if name == .str "content-type" then .ok v else contentTypeIn rest

/-- The row of a header. -/
def headerRow (k v : Value) : Result (List Text) := do
  let key ← cellOfValue k
  let value ← cellOfValue v
  .ok [key, value]

/-- Whether a response holds a JSON document. -/
def holdsDocument (r : Response) : Result Bool := do
  let type ← contentTypeIn r.headers
  let type ← type.lowered
  Value.isIn (.str "json") type

/-- Show a response, and say whether it tells success. -/
def showResponse (r : Response) (showHeaders : Bool) : Action Bool := do
  let isOk ← Action.ofResult r.isOk
  let style := if isOk then "green" else "red"
  Action.say ("[" ++ style ++ "]" ++ r.status.text ++ " " ++ r.statusText.text ++
    "[/" ++ style ++ "] [dim](" ++ r.elapsed.wholeText ++ " ms)[/dim]")
  if showHeaders then
    let rows ← Action.ofResult (r.headers.mapM fun (k, v) => headerRow k v)
    Action.show .out (.table none none rows)
  let isDocument ← Action.ofResult (holdsDocument r)
  Action.show .out
    (if isDocument then .highlighted "json" r.body.text else .verbatim r.body.text)
  pure isOk

/-- The history to record in, with its file, if one is named. -/
def recordingHistory (file : Value) (settings : Settings) : Action (Option History) := do
  if file.isTrue then
    let s ← get
    let h ← Action.ofResult (historyIn file settings s.files)
    pure (some h)
  else pure none

/-- Send a saved request by the transport around, noting the calls. -/
def exchange (around : Surroundings) (service : Service) (r : SavedRequest) :
    Action (Service × Result Response) := do
  let s ← get
  let (calls, service, result) := service.sendSaved r .null around.outcome s.supply.now
  set { s with calls := s.calls ++ calls }
  pure (service, result)

/-- Send a request. -/
def runSend (around : Surroundings) (settings : Settings) (o : SendOptions) : Action Nat := do
  let r ← describedRequest around o.request
  let environments ← loadEnvironments o.request settings
  let file := historyFile o.historyFile settings
  let history ← recordingHistory file settings
  let service : Service :=
    { environments := environments.getD .empty
      timeout := o.timeout.getD settings.timeout
      history }
  let (service, result) ← exchange around service r
  match result with
  | .error failure =>
    if isSendFailure failure then Action.warn ("❌ [red]" ++ failure.message ++ "[/red]")
  | .ok _ => pure ()
  match service.history with
  | some h => saveHistory file h
  | none => pure ()
  match result with
  | .ok response =>
    let isOk ← showResponse response o.showHeaders
    pure (if isOk then 0 else 1)
  | .error failure => if isSendFailure failure then pure 1 else throw failure

end HttpWorkbench.CommandLine
