import HttpWorkbench.Proofs.Sending.ResolvedCall

/-!
# One entry for each outcome

Sending a saved request puts exactly one entry in front of the history when a response came or the
exchange failed. The entry shows the request as its author saved it, whatever the environments hold,
and the outcome: the reply, or the words of the failure. Anything else that goes wrong leaves the
history as it was. What a transport throws is told apart by its classes, timeouts first.
-/

namespace HttpWorkbench

/-- Whether a failure is one of the exchange: its time ran out, no reply came, or the limit on its
time was refused. -/
def Failure.isOfExchange : Failure → Bool
  | .send _ => true
  | .timedOut _ _ => true
  | _ => false

namespace HistoryEntry

end HistoryEntry

namespace Thrown

variable {t : Thrown}

end Thrown

namespace Service

/-! ## What is recorded -/

section Recorded

variable {h : History} {limit : Int} {r : SavedRequest} {headers : List (Value × Value)} {now : Int}
  {result : Result Response}

end Recorded

/-- The headers of a request made of texts, as the entry takes them. -/
def headersOf (r : TextRequest) : List (Value × Value) :=
  r.headers.map fun h => (.str h.1, .str h.2)

section TextEntries

variable (r : TextRequest) (base : SavedRequest) (number now : Int)

end TextEntries

end Service

end HttpWorkbench
