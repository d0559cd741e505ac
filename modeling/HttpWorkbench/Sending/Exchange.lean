import HttpWorkbench.Failure
import HttpWorkbench.Value.Text
import HttpWorkbench.Value.Order

/-!
# Exchanges

What a transport is asked and how it answers: with a reply, or with one of the faults that keep
replies from coming. An answer is turned into a response or a failure that names the url.
-/

namespace HttpWorkbench

/-- What a transport is asked to send. -/
structure Call where
  method : Value
  url : Value
  headers : List (Value × Value)
  body : Value
  /-- The limit on the time of the exchange, in seconds. -/
  timeout : Binary64

/-- What a server replied, with the reading of the stopwatch that was started at zero, in seconds.
Nothing about a reply has been checked. -/
structure Reply where
  status : Value
  reason : Value
  text : Value
  headers : Value
  stopwatch : Value

/-- Why there is no reply. -/
inductive TransportFault where
  | timedOut
  | notConnected
  /-- The request cannot be sent as it is, or its redirections lead nowhere. -/
  | refused (detail : Text)
  /-- The transport broke down in a way that is not about the request. -/
  | broken (detail : Text)
  /-- The user stopped the exchange. -/
  | interrupted (detail : Text)
  deriving DecidableEq, Repr

/-- The classes of what transports throw. Timeouts and connection faults are request faults, and one
thing thrown can be of both kinds. -/
inductive ThrownClass where
  | timeout
  | connection
  | request
  | interruption
  deriving DecidableEq, Repr

/-- What a transport threw: its classes and its words. -/
structure Thrown where
  classes : List ThrownClass
  detail : Text

/-- The fault that is seen in what was thrown. Timeouts are looked for first, then connection faults,
then the other request faults; what is none of these is not about the request. -/
def Thrown.fault (t : Thrown) : TransportFault :=
  if t.classes.contains .timeout then .timedOut
  else if t.classes.contains .connection then .notConnected
  else if t.classes.contains .request then .refused t.detail
  else if t.classes.contains .interruption then .interrupted t.detail
  else .broken t.detail

/-- How a transport answers a call. -/
abbrev Outcome := Except TransportFault Reply

/-- What came back from a server. -/
structure Response where
  status : Value
  statusText : Value
  headers : List (Value × Value)
  body : Value
  /-- The time of the exchange in milliseconds. -/
  elapsed : Binary64

/-- The seconds that a stopwatch reading means. -/
def secondsOf : Value → Result Binary64
  | .float x => .ok x
  | v =>
    match v.asInt? with
    | none => misused (.noArithmetic "-" v.kindName "float")
    | some n =>
      match Binary64.ofInt? n with
      | some x => .ok x
      | none => misused .integerTooLarge

namespace Response

/-- Whether the status tells success or a redirection. -/
def isOk (r : Response) : Result Bool := do
  let reached ← Value.isAtMost (.int 200) r.status
  if reached then r.status.isLess (.int 400) else .ok false

/-- The response that a reply is. A reason that does not count is an empty text. -/
def ofReply (reply : Reply) : Result Response := do
  let seconds ← secondsOf reply.stopwatch
  let headers ← reply.headers.toDictionary
  .ok {
    status := reply.status
    statusText := reply.reason.orElse (.str "")
    headers
    body := reply.text
    elapsed := seconds.scale 1000 }

end Response

namespace Call

/-- The failure that a fault is for this call. -/
def failure (call : Call) : TransportFault → Failure
  | .timedOut => .timedOut call.url.text call.timeout.generalText
  | .notConnected => .send (.notConnected call.url.text)
  | .refused detail => .send (.refused call.url.text detail)
  | .broken detail => .broken detail
  | .interrupted detail => .interrupted detail

/-- The result of the call, given the transport's answer. -/
def conclude (call : Call) : Outcome → Result Response
  | .ok reply => Response.ofReply reply
  | .error fault => .error (call.failure fault)

end Call

end HttpWorkbench
