import HttpWorkbench.Environment.Store
import HttpWorkbench.History.Store
import HttpWorkbench.Json.Writer
import HttpWorkbench.Sending.Exchange

/-!
# Sending requests

A request is resolved against the environments, its body is made a text, and its time limit is
checked before anything is sent. A saved request leaves an entry in the history, with the
response or with the failure, and with its own fields as they were before resolving.
-/

namespace HttpWorkbench

/-- A request as it is handed to the service. -/
structure Outgoing where
  url : Value
  method : Value
  headers : Value
  body : Value
  /-- The limit on the time in milliseconds; null leaves it to the service. -/
  timeout : Value

/-- What requests are sent with. -/
structure Service where
  environments : EnvironmentStore
  timeout : Value
  history : Option History

namespace Service

/-- A header table resolved; null stays. -/
def resolveHeaders (s : Service) (headers : Value) : Result Value :=
  match headers with
  | .null => .ok .null
  | headers => do
    let entries ← headers.entriesFor "items"
    let resolved ← s.environments.resolveEntries entries
    .ok (.map resolved)

/-- A body resolved; what is no text stays. -/
def resolveBody (s : Service) (body : Value) : Result Value :=
  match body with
  | .str _ => s.environments.resolve body
  | body => .ok body

/-- A request with the headers and body resolved, and the url as it is. -/
def resolveOptions (s : Service) (o : Outgoing) : Result Outgoing := do
  let headers ← s.resolveHeaders o.headers
  let body ← s.resolveBody o.body
  .ok { o with headers, body }

/-- The headers of a body that is written as a document: they name its type, unless one is named. -/
def withDocumentType (headers : List (Value × Value)) : List (Value × Value) :=
  if Assoc.contains (.str "Content-Type") headers then headers
  else Assoc.put (.str "Content-Type") (.str "application/json") headers

/-- The body as it is sent, and the headers that go with it. -/
def encodeBody (body : Value) (headers : List (Value × Value)) :
    Result (Value × List (Value × Value)) :=
  match body with
  | .null => .ok (.null, headers)
  | .str s => .ok (.str s, headers)
  | .bytes b => .ok (.bytes b, headers)
  | body => do
    let text ← Json.lineText body
    .ok (.str text, withDocumentType headers)

/-- A time in milliseconds as seconds. -/
def inSeconds (timeout : Value) : Result Binary64 :=
  match timeout with
  | .float x => .ok (x.divide 1000)
  | v =>
    match v.asInt? with
    | none => misused (.unordered "<=" v.kindName "int")
    | some n =>
      match Binary64.ofQuotient? n 1000 with
      | some x => .ok x
      | none => misused .quotientTooLarge

/-- The limit in seconds, when it is positive. -/
def timeLimit (s : Service) (timeout : Value) : Result Binary64 := do
  let effective :=
    match timeout with
    | .null => s.timeout
    | v => v
  let tooSmall ← effective.isAtMost (.int 0)
  if tooSmall then .error (.send (.timeoutNotPositive effective.text))
  else inSeconds effective

/-- What the transport will be asked for a request. -/
def prepare (s : Service) (o : Outgoing) : Result Call := do
  let url ← s.environments.resolve o.url
  let options ← s.resolveOptions o
  let headers :=
    match options.headers with
    | .map entries => entries
    | _ => []
  let (body, headers) ← encodeBody options.body headers
  let timeout ← s.timeLimit o.timeout
  .ok { method := o.method, url, headers, body, timeout }

/-- Send a request: what the transport is asked, and the result. -/
def send (s : Service) (o : Outgoing) (outcome : Outcome) : List Call × Result Response :=
  match s.prepare o with
  | .error failure => ([], .error failure)
  | .ok call => ([call], call.conclude outcome)

/-- A saved request as it is handed to the service. -/
def outgoing (r : SavedRequest) (timeout : Value) : Outgoing where
  url := r.url
  method := r.method
  headers := r.headers
  body := r.body
  timeout := timeout

/-- The fields of a history entry that describe the request. -/
def requestFields (r : SavedRequest) (headers : List (Value × Value)) : List (Value × Value) :=
  [(.str "method", r.method), (.str "url", r.url),
    (.str "headers", .list (headers.map fun (k, v) => .ofFields [("key", k), ("value", v)])),
    (.str "body", r.body)]

/-- The fields of a history entry that describe the outcome, if it is one to be recorded. -/
def outcomeFields : Result Response → Option (List (Value × Value))
  | .ok r => some [(.str "status", r.status), (.str "status_text", r.statusText),
      (.str "response_time", .float r.elapsed), (.str "response_body", r.body),
      (.str "response_headers", .map r.headers)]
  | .error (.send reason) => some [(.str "error", .str (Failure.send reason).message)]
  | .error (.timedOut url seconds) =>
    some [(.str "error", .str (Failure.timedOut url seconds).message)]
  | .error _ => none

/-- Record an outcome. When the entry cannot be added, that failure is the result. -/
def record (s : Service) (fields : List (Value × Value)) (result : Result Response) (now : Int) :
    Service × Result Response :=
  match s.history, outcomeFields result with
  | some h, some outcome =>
    let (h, added) := h.add (fields ++ outcome) now
    let s := { s with history := some h }
    match added with
    | .ok _ => (s, result)
    | .error failure => (s, .error failure)
  | _, _ => (s, result)

/-- Send a saved request and record the outcome. -/
def sendSaved (s : Service) (r : SavedRequest) (timeout : Value) (outcome : Outcome) (now : Int) :
    List Call × Service × Result Response :=
  match r.headers.entriesFor "items" with
  | .error failure => ([], s, .error failure)
  | .ok headers =>
    let (calls, result) := s.send (outgoing r timeout) outcome
    let (s, result) := s.record (requestFields r headers) result now
    (calls, s, result)

end Service

end HttpWorkbench
