import HttpWorkbench.Proofs.Environment.Offered
import HttpWorkbench.Proofs.Request.Offered
import HttpWorkbench.Proofs.Sending.RecordedOutcome
import HttpWorkbench.Proofs.Sending.StoredEntry
import HttpWorkbench.Proofs.Settings.Offered

/-!
# Exchanges that can be recorded

What a transport is to answer so that the exchange can be shown and recorded. Sending a request made
of texts under a limit on the time then gives a response that can be, or it is a failure of the
exchange, whose words can be.
-/

namespace HttpWorkbench

open Json (IsDocument)

/-- A reply as transports make them: a status of at most three digits, texts that can be encoded, a
table of such texts for headers, and a time. -/
structure Reply.Fits (reply : Reply) : Prop where
  status : ∃ n : Nat, reply.status = .int n ∧ n < 1000
  reason : reply.reason = .null ∨ reply.reason.IsEncodableText
  text : reply.text.IsEncodableText
  headers : ∃ table, reply.headers = .map table ∧ Assoc.HasDistinctKeys table ∧ IsTextTable table
  stopwatch : ∃ negative m e h, reply.stopwatch = .float (.finite negative m e h)

/-- What can come of asking a transport for a request: a reply, or a fault that is about the request. -/
def Outcome.Fits : Outcome → Prop
  | .ok reply => reply.Fits
  | .error .timedOut => True
  | .error .notConnected => True
  | .error (.refused detail) => detail.HasNoHalves
  | .error (.broken _) => False
  | .error (.interrupted _) => False

/-- A response that can be shown and stored. -/
structure Response.Fits (response : Response) : Prop where
  storable : response.IsStorable
  status : ∃ n : Int, response.status = .int n
  headers : IsTextTable response.headers

/-- A number that was scaled is not one that is none. -/
theorem Binary64.scale_finite_ne_nan (negative : Bool) (m : Nat) (e : Int) (h : Canonical m e)
    (factor : Nat) (mark : NanMark) : scale (.finite negative m e h) factor ≠ .nan mark := by
  have hratio (num den : Nat) : ofRatio negative num den ≠ .nan mark := by
    unfold ofRatio
    intro hnan
    split at hnan
    · cases hnan
    · dsimp only at hnan
      split_ifs at hnan
  exact hratio _ _

/-- A reply that fits is a response that fits. -/
theorem Reply.Fits.exists_ofReply {reply : Reply} (h : reply.Fits) :
    ∃ response, Response.ofReply reply = .ok response ∧ response.Fits := by
  obtain ⟨n, hstatus, hn⟩ := h.status
  obtain ⟨table, htable, hdistinct, htexts⟩ := h.headers
  obtain ⟨negative, m, e, hcanonical, hstopwatch⟩ := h.stopwatch
  have hreason : IsDocument Value.storedDepth (reply.reason.orElse (.str "")) := by
    unfold Value.orElse
    split
    · rcases h.reason with hnull | htext
      · rw [hnull]
        exact .null
      · exact Json.isDocument_of_isEncodableText htext _
    · exact Json.isDocument_ofString "" _
  rw [Response.ofReply, hstopwatch, htable]
  refine ⟨_, rfl, ⟨?_, hreason, ?_, ?_, ?_⟩, ⟨n, hstatus⟩, htexts⟩
  · rw [hstatus]
    refine .int ?_
    rw [Int.natAbs_natCast, natText, Text.ofChars, List.length_map]
    exact (Nat.toDigits_length 10 n 3 (by decide) hn).trans (by decide)
  · exact .float fun k => Binary64.scale_finite_ne_nan negative m e hcanonical 1000 (.given k)
  · exact Json.isDocument_of_isEncodableText h.text _
  · exact Json.isDocument_map hdistinct (fun e he => (htexts e he).1) fun e he =>
      Json.isDocument_of_isEncodableText (htexts e he).2 _

/-- Whether the status of a response tells success is known. -/
theorem Response.Fits.exists_isOk {response : Response} (h : response.Fits) :
    ∃ success, response.isOk = .ok success := by
  obtain ⟨n, hn⟩ := h.status
  obtain ⟨reached, hreached⟩ : ∃ reached, Value.isAtMost (.int 200) (.int n) = .ok reached :=
    ⟨_, rfl⟩
  rw [isOk, hn, hreached, ok_bind]
  split
  · exact ⟨_, rfl⟩
  · exact ⟨_, rfl⟩

/-- A limit on the time is one that is refused or a number of seconds. -/
theorem Service.timeLimit_cases (s : Service) (h : s.timeout.IsTimeLimit) :
    (∃ seconds, s.timeLimit .null = .ok seconds) ∨
      s.timeLimit .null = .error (.send (.timeoutNotPositive s.timeout.text)) := by
  obtain ⟨q, hq, hbound⟩ := h
  change (s.effectiveTimeout .null).amount? = some q at hq
  rcases le_or_gt q 0 with hnonpos | hpos
  · exact .inr (s.timeLimit_of_nonpos hq hnonpos)
  · obtain ⟨m, e, hcanonical, hlimit, -⟩ := s.timeLimit_finite hq hpos hbound
    exact .inl ⟨_, hlimit⟩

/-- The words for a limit on the time can be encoded. -/
theorem Value.IsTimeLimit.hasNoHalves_text {v : Value} (h : v.IsTimeLimit) :
    v.text.HasNoHalves := by
  obtain ⟨q, hq, -⟩ := h
  cases v with
  | bool _ | int _ | float _ => exact Value.hasNoHalves_quoted _
  | _ => cases hq

/-- A failure of the exchange with words that can be encoded. -/
def Failure.IsShownExchange (failure : Failure) : Prop :=
  failure.isOfExchange = true ∧ failure.message.HasNoHalves

theorem Call.isShownExchange_failure {call : Call} (hurl : call.url.text.HasNoHalves)
    {fault : TransportFault} (hfault : Outcome.Fits (.error fault)) :
    (call.failure fault).IsShownExchange := by
  have hstring (s : String) := Text.HasNoHalves.ofString s
  cases fault with
  | timedOut =>
    have htime := Binary64.hasNoHalves_generalText call.timeout
    exact ⟨rfl, ((((hstring _).append hurl).append (hstring _)).append htime).append (hstring _)⟩
  | notConnected => exact ⟨rfl, (hstring _).append hurl⟩
  | refused detail => exact ⟨rfl, (((hstring _).append hurl).append (hstring _)).append hfault⟩
  | _ => exact hfault.elim

/-- Sending a request made of texts gives a response to the reply, or a failure of the exchange. -/
theorem Service.yields_send {s : Service} {f : Text → Text} (hf : s.environments.Resolves f)
    (htime : s.timeout.IsTimeLimit) {t : TextRequest} (ht : t.IsEncodable) (base : SavedRequest)
    {outcome : Outcome} (houtcome : outcome.Fits) :
    Yields (fun response => response.Fits ∧
        ∃ reply, outcome = .ok reply ∧ Response.ofReply reply = .ok response)
      Failure.IsShownExchange (s.send (outgoing (t.saved base) .null) outcome).2 := by
  have hprepare := prepare_saved hf.text t base .null
  rw [send, hprepare]
  rcases s.timeLimit_cases htime with ⟨seconds, hlimit⟩ | hrefused
  · rw [hlimit]
    cases outcome with
    | ok reply =>
      obtain ⟨response, hresponse, hfits⟩ := Reply.Fits.exists_ofReply houtcome
      exact .of_ok hresponse ⟨hfits, reply, rfl, hresponse⟩
    | error fault =>
      refine Call.isShownExchange_failure ?_ houtcome
      exact hf.clean _ ht.url
  · rw [hrefused]
    exact ⟨rfl, (Text.HasNoHalves.ofString _).append htime.hasNoHalves_text⟩

/-- What an exchange leaves in a history can be stored when the history and the result can be. -/
theorem Service.storable_historyAfter {h : History} (hentries : ∀ e ∈ h.entries, e.Storable)
    {t : TextRequest} (ht : t.IsEncodable) (base : SavedRequest) (now : Int)
    {result : Result Response} (hresult : Yields Response.Fits Failure.IsShownExchange result) :
    ∀ e ∈ (historyAfter h (t.saved base) (headersOf t) now result).entries, e.Storable := by
  have hrequest : (t.saved base).IsStorable (headersOf t) := by
    refine ⟨.str ht.method, .str ht.url, ?_, fun h hh => ?_⟩
    · change Json.IsDocument _ (.ofText? t.body)
      cases hbody : t.body with
      | none => exact .null
      | some body => exact .str (ht.body body hbody)
    · obtain ⟨header, hheader, rfl⟩ := List.mem_map.mp hh
      exact ⟨.str (ht.headers header hheader).1, .str (ht.headers header hheader).2⟩
  intro e he
  rcases mem_historyAfter he with he | hentry
  · exact hentries e he
  · refine storable_entryFor? hrequest ?_ ?_ hentry
    · rintro response rfl
      exact hresult.storable
    · rintro failure rfl
      exact hresult.2

end HttpWorkbench
