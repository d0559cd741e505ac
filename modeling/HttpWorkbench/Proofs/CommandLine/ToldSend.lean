import HttpWorkbench.CommandLine.SendCommand
import HttpWorkbench.Proofs.CommandLine.ToldHistory
import HttpWorkbench.Proofs.Sending.Offered

/-!
# Requests that are sent and told

Sending a request made of texts, where the limit on the time is a number and the transport answers
with a reply or with a fault that is about the request: the exchange is recorded, the response is
shown or the failure is told, and the command ends with a code.
-/

namespace HttpWorkbench.CommandLine

open CommandLine.Action (Ensures)
open Failure (IsTold)

/-- The options of a sending fit: the request does, the limit on the time is a number, and the history
file that they or the settings name offers a history and can be named. -/
structure SendOptions.Fits (o : SendOptions) (around : Surroundings) (settings : Settings)
    (files : Files) : Prop where
  request : o.request.Fits around settings files
  timeout : ∀ v ∈ o.timeout, v.IsTimeLimit
  history : OffersHistory o.historyFile settings files
  path : CanNameHistory o.historyFile settings

variable {around : Surroundings} {settings : Settings} {files : Files} {o : SendOptions}
  {E : Failure → Session → Prop}

/-! ## Showing a response -/

theorem exists_contentTypeIn {headers : List (Value × Value)} (h : IsTextTable headers) :
    ∃ type : Text, contentTypeIn headers = .ok (.str type) := by
  induction headers with
  | nil => exact ⟨_, rfl⟩
  | cons header headers ih =>
    rw [IsTextTable, List.forall_mem_cons] at h
    obtain ⟨⟨⟨key, hkey, -⟩, value, hvalue, -⟩, hrest⟩ := h
    obtain ⟨k, v⟩ := header
    obtain rfl : k = .str key := hkey
    obtain rfl : v = .str value := hvalue
    have hlowered : (Value.str key).lowered = .ok (.str (Text.lower key)) := rfl
    rw [contentTypeIn, hlowered, ok_bind]
    split
    · exact ⟨value, rfl⟩
    · exact ih hrest

theorem exists_holdsDocument {response : Response} (h : response.Fits) :
    ∃ isDocument, holdsDocument response = .ok isDocument := by
  obtain ⟨type, htype⟩ := exists_contentTypeIn h.headers
  rw [holdsDocument, htype]
  exact ⟨_, rfl⟩

theorem exists_headerRows {response : Response} (h : response.Fits) :
    ∃ rows, response.headers.mapM (fun (k, v) => headerRow k v) = .ok rows := by
  refine exists_mapM_eq_ok_iff.mpr fun header hheader => ?_
  obtain ⟨⟨key, hkey, -⟩, value, hvalue, -⟩ := h.headers header hheader
  change ∃ row, headerRow header.1 header.2 = .ok row
  rw [hkey, hvalue]
  exact ⟨_, rfl⟩

/-- A response that fits is shown. -/
theorem ensures_showResponse {response : Response} (h : response.Fits) {success : Bool}
    (hsuccess : response.isOk = .ok success) (showHeaders : Bool) :
    Ensures (fun _ => True) (showResponse response showHeaders) (fun found _ => found = success) E := by
  obtain ⟨isDocument, hdocument⟩ := exists_holdsDocument h
  obtain ⟨rows, hrows⟩ := exists_headerRows h
  have hbody : Ensures (fun _ => True)
      (Action.ofResult (holdsDocument response) >>= fun isDocument =>
        Action.show .out (if isDocument then .highlighted "json" response.body.text
          else .verbatim response.body.text) >>= fun _ => pure success)
      (fun found _ => found = success) E :=
    .ofResult_bind hdocument <| (ensures_show _ _).bind fun _ => .pure fun _ _ => rfl
  unfold showResponse
  refine .ofResult_bind hsuccess <| (ensures_show _ _).bind fun _ => ?_
  dsimp only
  split
  · exact .ofResult_bind hrows <| (ensures_show _ _).bind fun _ => hbody
  · exact hbody

/-! ## The command -/

theorem isSendFailure_eq (failure : Failure) : isSendFailure failure = failure.isOfExchange := by
  cases failure <;> rfl

/-- The history to record in, if one is named. -/
theorem OffersHistory.ensures_recordingHistory {option : Option Text}
    (h : OffersHistory option settings files) (hsettings : settings.AreUsable) :
    Ensures (·.files = files) (recordingHistory (historyFile option settings) settings)
      (fun history _ => LoadsHistory option settings files ∧
        ∀ found, history = some found → found.IsUsable ∧
          ∃ name : Text, historyFile option settings = .str name ∧ name ≠ "")
      fun failure _ => failure.IsTold := by
  unfold recordingHistory LoadsHistory
  rcases historyFile_cases option hsettings with hnone | ⟨name, hfile, hname⟩
  · rw [hnone]
    exact .pure fun _ _ => ⟨nofun, nofun⟩
  · rw [hfile, isTrue_of_ne_empty hname]
    refine .get_bind fun s hs => ?_
    subst hs
    have hloaded := (h.yields_historyIn hsettings hfile hname).with_eq
    refine .ofResult_bind_of_yields hloaded fun found hfound => .pure fun _ _ => ?_
    refine ⟨fun _ => ⟨found, hfound.2⟩, ?_⟩
    rintro _ ⟨⟩
    exact ⟨hfound.1, name, rfl, hname⟩

/-- What an exchange comes to: the history to save, if there is one, and a response to the reply or a
failure of the exchange. -/
structure Exchanged (around : Surroundings) (recording : Bool) (service : Service)
    (result : Result Response) : Prop where
  history : ∀ h, service.history = some h → recording = true ∧ ∀ e ∈ h.entries, e.Storable
  result : Yields (fun response => response.Fits ∧
      ∃ reply, around.outcome = .ok reply ∧ Response.ofReply reply = .ok response)
    Failure.IsShownExchange result

/-- An exchange of a request made of texts. -/
theorem ensures_exchange {s : Service} {f : Text → Text}
    (hf : s.environments.Resolves f) (htime : s.timeout.IsTimeLimit)
    (hhistory : ∀ h, s.history = some h → h.IsUsable) {r : SavedRequest} (hr : r.HoldsTexts)
    (houtcome : around.outcome.Fits) :
    Ensures (fun _ => True) (exchange around s r)
      (fun x _ => Exchanged around s.history.isSome x.1 x.2) E := by
  obtain ⟨t, ht, hsaved⟩ := hr
  have hlimit (h : History) (hh : s.history = some h) :
      ∃ limit : Int, h.limit = .int limit := (hhistory h hh).limit
  have hsend := Service.yields_send hf htime ht r houtcome
  refine .get_bind fun current _ => ?_
  have hexchanged := Service.sendSaved_saved hlimit t r .null around.outcome current.supply.now
  rw [hsaved] at hexchanged hsend
  rw [hexchanged]
  refine .bind (Q := fun _ _ => True) (.set fun _ _ => trivial) fun _ => .pure fun _ _ => ⟨?_, hsend⟩
  intro h hh
  obtain ⟨before, hbefore, rfl⟩ := Option.map_eq_some_iff.mp hh
  refine ⟨by rw [hbefore]; rfl, ?_⟩
  have hstorable (e : HistoryEntry) (he : e ∈ before.entries) : e.Storable :=
    ((hhistory before hbefore).entries e he).storable
  have hentries := Service.storable_historyAfter hstorable ht r current.supply.now
    (hsend.imp (fun _ h => h.1) fun _ h => h)
  rw [hsaved] at hentries
  exact hentries

/-- Saving the history, if there is one, comes before the rest. -/
theorem Exchanged.ensures_saved {recording : Bool} {service : Service} {result : Result Response}
    (h : Exchanged around recording service result) {option : Option Text}
    (hpath : CanNameHistory option settings)
    (hfile : recording = true → ∃ name : Text, historyFile option settings = .str name ∧ name ≠ "")
    {Q : Session → Prop} (hQ : ∀ s files, Q s → Q { s with files := files }) {rest : Action Nat}
    {R : Nat → Session → Prop} (hrest : Ensures Q rest R fun failure _ => failure.IsTold) :
    Ensures Q
      (match service.history with
        | some h => saveHistory (historyFile option settings) h >>= fun _ => rest
        | none => rest) R fun failure _ => failure.IsTold := by
  cases hhistory : service.history with
  | none => exact hrest
  | some found =>
    obtain ⟨hrecording, hentries⟩ := h.history found hhistory
    obtain ⟨name, hname, hgiven⟩ := hfile hrecording
    have hsaved := hpath.ensures_saveHistory hname hgiven hentries hQ
    dsimp only
    rw [hname]
    exact hsaved.bind fun _ => hrest

/-- The request, the environments and the history can be loaded, and a reply tells success. -/
structure SendOptions.Works (o : SendOptions) (around : Surroundings) (settings : Settings)
    (files : Files) : Prop where
  request : o.request.Loads around settings files
  history : LoadsHistory o.historyFile settings files
  reply : around.outcome.Tells true

/-- The limit on the time is a number, whether an option or the settings give it. -/
theorem SendOptions.Fits.isTimeLimit (h : o.Fits around settings files)
    (hsettings : settings.AreUsable) : (o.timeout.getD settings.timeout).IsTimeLimit := by
  cases hgiven : o.timeout with
  | none => exact hsettings.time
  | some v => exact h.timeout v hgiven

/-- Without environments, texts are resolved to themselves. -/
theorem ResolveTexts.exists_resolves {environments : Option EnvironmentStore}
    (h : ResolveTexts environments) : ∃ f, (environments.getD .empty).Resolves f := by
  cases environments with
  | none => exact ⟨id, EnvironmentStore.resolves_empty⟩
  | some store => exact h store rfl

/-- A response to the reply that fits is shown, and the code tells whether it is a success. -/
theorem ensures_shown {worked : Prop} {reply : Reply} {response : Response} (hfits : response.Fits)
    (hreply : around.outcome = .ok reply) (hresponse : Response.ofReply reply = .ok response)
    (hworked : around.outcome.Tells true → worked) (showHeaders : Bool) :
    Ensures (fun _ => True)
      (showResponse response showHeaders >>= fun isOk => pure (if isOk then 0 else 1))
      (EndsWithCode worked around.outcome) E := by
  obtain ⟨success, hsuccess⟩ := hfits.exists_isOk
  refine (ensures_showResponse hfits hsuccess showHeaders).bind fun found => .pure ?_
  rintro _ rfl
  have htells : around.outcome.Tells found := ⟨reply, response, hreply, hresponse, hsuccess⟩
  cases found with
  | true => exact .inl ⟨rfl, hworked htells⟩
  | false => exact .inr ⟨rfl, .inr htells⟩

/-- A sending that fits ends with a code. -/
theorem SendOptions.Fits.ensures_runSend (h : o.Fits around settings files)
    (hsettings : settings.AreUsable) (houtcome : around.outcome.Fits) :
    Ensures (·.files = files) (runSend around settings o)
      (EndsWithCode (o.Works around settings files) around.outcome)
      fun failure _ => failure.IsTold := by
  unfold runSend
  refine h.request.ensures_describedRequest.bind fun r => .of_and fun hr =>
    (h.request.ensures_loadEnvironments hsettings).bind fun environments => .of_and fun hresolve => ?_
  refine (h.history.ensures_recordingHistory hsettings).bind fun history s hrecording => ?_
  obtain ⟨hloads, hhistory⟩ := hrecording
  obtain ⟨f, hf⟩ := hresolve.1.exists_resolves
  have hfile : history.isSome = true →
      ∃ name : Text, CommandLine.historyFile o.historyFile settings = .str name ∧ name ≠ "" := by
    cases history with
    | none => nofun
    | some found => exact fun _ => (hhistory found rfl).2
  have hexchange := ensures_exchange (E := fun failure _ => failure.IsTold)
    (s := ⟨environments.getD .empty, o.timeout.getD settings.timeout, history⟩) hf
    (h.isTimeLimit hsettings) (fun found hfound => (hhistory found hfound).1) hr.1 houtcome
  refine (hexchange.bind fun x => ?_) s trivial
  obtain ⟨service, result⟩ := x
  rintro s' hexchanged
  have hresult := hexchanged.result
  dsimp only at hresult ⊢
  -- The history is saved before the code is known, which changes nothing that was shown.
  cases result with
  | ok response =>
    obtain ⟨hfits, reply, hreply, hresponse⟩ := hresult
    have hworks (htells : around.outcome.Tells true) : o.Works around settings files :=
      ⟨⟨hr.2, environments, hresolve.2⟩, hloads, htells⟩
    exact hexchanged.ensures_saved h.path hfile (fun _ _ _ => trivial)
      (ensures_shown hfits hreply hresponse hworks o.showHeaders) s' trivial
  | error failure =>
    have hfailure : isSendFailure failure = true := (isSendFailure_eq failure).trans hresult.1
    have hone : Ensures Session.TellsFailure (pure 1)
        (EndsWithCode (o.Works around settings files) around.outcome)
        fun failure _ => failure.IsTold := .pure fun _ hs => .inr ⟨rfl, .inl hs⟩
    simp only [if_pos hfailure]
    exact ((ensures_tells (P := fun _ => True) _).bind fun _ =>
      hexchanged.ensures_saved h.path hfile (fun _ _ hs => hs) hone) s' trivial

end HttpWorkbench.CommandLine
