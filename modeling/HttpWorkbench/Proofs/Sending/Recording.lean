import HttpWorkbench.Proofs.History.Operations
import HttpWorkbench.Sending.Service

/-!
# What is recorded

Sending a saved request leaves one entry in the history when a response came or the exchange failed,
and none when anything else went wrong. The entry shows the request with its own fields and can
always be added.
-/

namespace HttpWorkbench.Service

/-- The entry that an outcome leaves, with a number and at a clock reading. -/
def entryFor? (r : SavedRequest) (headers : List (Value × Value)) (number now : Int)
    (result : Result Response) : Option HistoryEntry :=
  let unanswered (message : Text) : HistoryEntry :=
    { id := .str (History.identifier number)
      method := r.method
      url := r.url
      timestamp := .str (timestamp now)
      headers := .list (headers.map fun h => .ofFields [("key", h.1), ("value", h.2)])
      body := r.body
      status := .null
      statusText := .null
      responseTime := .null
      responseBody := .null
      responseHeaders := .map []
      tags := .list []
      error := .str message }
  match result with
  | .ok response =>
    some { unanswered "" with
      status := response.status
      statusText := response.statusText
      responseTime := .float response.elapsed
      responseBody := response.body
      responseHeaders := .map response.headers
      error := .null }
  | .error (.send reason) => some (unanswered reason.message)
  | .error (.timedOut url seconds) => some (unanswered (Failure.timedOut url seconds).message)
  | .error _ => none

/-- The history after an outcome: an entry in front of the others, cut to the limit, if the outcome
leaves one. -/
def historyAfter (h : History) (r : SavedRequest) (headers : List (Value × Value)) (now : Int)
    (result : Result Response) : History :=
  match entryFor? r headers (h.nextNumber now) now result, h.limit.asInt? with
  | some e, some limit =>
    { entries := (e :: h.entries).take (History.keptCount limit (h.entries.length + 1))
      limit := h.limit
      lastNumber := h.nextNumber now }
  | _, _ => h

/-- An entry of the history after an outcome was there before or is the one that the outcome leaves. -/
theorem mem_historyAfter {h : History} {r : SavedRequest} {headers : List (Value × Value)} {now : Int}
    {result : Result Response} {e : HistoryEntry}
    (he : e ∈ (historyAfter h r headers now result).entries) :
    e ∈ h.entries ∨ entryFor? r headers (h.nextNumber now) now result = some e := by
  unfold historyAfter at he
  split at he
  · rename_i entry limit hentry _
    rcases List.mem_cons.mp (List.mem_of_mem_take he) with rfl | he
    · exact .inr hentry
    · exact .inl he
  · exact .inl he

/-- The entry of a request and an outcome is added. -/
theorem add_requestFields (h : History) {limit : Int} (hlimit : h.limit = .int limit)
    (r : SavedRequest) (headers : List (Value × Value)) (now : Int) (result : Result Response)
    {outcome : List (Value × Value)} (houtcome : outcomeFields result = some outcome) :
    ∃ e, entryFor? r headers (h.nextNumber now) now result = some e ∧
      h.add (requestFields r headers ++ outcome) now =
        (historyAfter h r headers now result, .ok e) := by
  have hadd {given : List (Value × Value)} {args : List (Text × Value)} {e : HistoryEntry}
      (hgiven : History.givenFields (requestFields r headers ++ outcome) = .ok given)
      (hargs : HistoryEntry.shape.arguments
        (History.assignedFields (h.nextNumber now) now ++ given) = .ok args)
      (he : HistoryEntry.ofArguments args = e)
      (hentry : entryFor? r headers (h.nextNumber now) now result = some e) :
      h.add (requestFields r headers ++ outcome) now =
        (historyAfter h r headers now result, .ok e) := by
    subst he
    rcases History.add_cases h (requestFields r headers ++ outcome) now hlimit with
      ⟨failure, hfailure, -⟩ | ⟨given', failure, hgiven', hfailure, -⟩ |
      ⟨given', args', hgiven', hargs', hadd⟩
    · rw [hgiven] at hfailure
      cases hfailure
    · obtain rfl := Except.ok.inj (hgiven.symm.trans hgiven')
      rw [hargs] at hfailure
      cases hfailure
    · obtain rfl := Except.ok.inj (hgiven.symm.trans hgiven')
      obtain rfl := Except.ok.inj (hargs.symm.trans hargs')
      rw [hadd, historyAfter, hentry, hlimit]
      rfl
  unfold outcomeFields at houtcome
  split at houtcome
  · cases houtcome
    exact ⟨_, rfl, hadd rfl rfl rfl rfl⟩
  · cases houtcome
    exact ⟨_, rfl, hadd rfl rfl rfl rfl⟩
  · cases houtcome
    exact ⟨_, rfl, hadd rfl rfl rfl rfl⟩
  · cases houtcome

/-- Recording keeps the result, and changes nothing but the history. -/
theorem record_eq (s : Service) {h : History} (hh : s.history = some h) {limit : Int}
    (hlimit : h.limit = .int limit) (r : SavedRequest) (headers : List (Value × Value)) (now : Int)
    (result : Result Response) :
    s.record (requestFields r headers) result now =
      ({ s with history := some (historyAfter h r headers now result) }, result) := by
  cases houtcome : outcomeFields result with
  | none =>
    have hnone : entryFor? r headers (h.nextNumber now) now result = none := by
      unfold outcomeFields at houtcome
      split at houtcome <;> simp_all [entryFor?]
    simp only [record, hh, houtcome, historyAfter, hnone]
    rw [← hh]
  | some outcome =>
    obtain ⟨e, -, hadd⟩ := add_requestFields h hlimit r headers now result houtcome
    simp only [record, hh, houtcome, hadd]

/-- Without a history nothing is recorded. -/
theorem record_of_none (s : Service) (hh : s.history = none) (fields : List (Value × Value))
    (result : Result Response) (now : Int) : s.record fields result now = (s, result) := by
  rw [record, hh]

/-- A service with a history sends as one without, and records the result. -/
theorem sendSaved_eq_recorded (s : Service) {h : History} (hh : s.history = some h) {limit : Int}
    (hlimit : h.limit = .int limit) (r : SavedRequest) (timeout : Value) (outcome : Outcome)
    (now : Int) {calls : List Call} {s' : Service} {result : Result Response}
    (hsend : { s with history := none }.sendSaved r timeout outcome now = (calls, s', result)) :
    s.sendSaved r timeout outcome now =
      (calls, { s with history := some (historyAfter h r
        ((r.headers.entriesFor "items").toOption.getD []) now result) }, result) := by
  rw [sendSaved] at hsend ⊢
  cases hheaders : r.headers.entriesFor "items" with
  | ok headers =>
    simp only [hheaders, record_of_none, Prod.mk.injEq] at hsend
    obtain ⟨rfl, -, rfl⟩ := hsend
    simp only [record_eq s hh hlimit]
    rfl
  | error failure =>
    simp only [hheaders, Prod.mk.injEq] at hsend
    obtain ⟨rfl, -, rfl⟩ := hsend
    have hnone : historyAfter h r [] now (.error failure) = h := by
      cases hvalue : r.headers <;> rw [hvalue] at hheaders <;> cases hheaders <;> rfl
    change ([], s, _) = ([], { s with history := some (historyAfter h r [] now (.error failure)) }, _)
    rw [hnone, ← hh]

end HttpWorkbench.Service
