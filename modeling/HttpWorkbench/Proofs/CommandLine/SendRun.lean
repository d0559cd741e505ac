import HttpWorkbench.CommandLine.Program
import HttpWorkbench.Proofs.CommandLine.Actions
import HttpWorkbench.Proofs.History.Stored
import HttpWorkbench.Proofs.Sending.Recording

/-!
# A run that sends

The program is run to send a request. It loads the history from a file, records what came of the
exchange, and saves the history, whatever that was. After the run the file holds the entry of the
run, if there is one, in front of those that it held before.
-/

namespace HttpWorkbench.CommandLine

open CommandLine.Action (outcome KeepsFiles files_bind keepsFiles_pure keepsFiles_throw keepsFiles_show
  keepsFiles_ofResult outcome_bind_of_ok)

/-- Telling failures does not change the files. -/
theorem files_guarded (a : Action Nat) (s : Session) :
    ((guarded a).outcome s).2.files = (a.outcome s).2.files := by
  rw [guarded, files_bind, Action.outcome_attempt]
  intro result
  split
  · exact keepsFiles_pure _
  · exact (keepsFiles_show _ _).bind fun _ => keepsFiles_pure _
  · exact (keepsFiles_show _ _).bind fun _ => keepsFiles_pure _
  · exact (keepsFiles_show _ _).bind fun _ => keepsFiles_pure _
  · exact keepsFiles_throw _

theorem keepsFiles_showResponse (r : Response) (showHeaders : Bool) :
    KeepsFiles (showResponse r showHeaders) := by
  refine (keepsFiles_ofResult _).bind fun isOk => (keepsFiles_show _ _).bind fun _ => ?_
  have hbody := (keepsFiles_ofResult (holdsDocument r)).bind fun isDocument =>
    (keepsFiles_show .out (if isDocument then .highlighted "json" r.body.text
      else .verbatim r.body.text)).bind fun _ => keepsFiles_pure isOk
  dsimp only
  split
  · exact (keepsFiles_ofResult _).bind fun rows => (keepsFiles_show _ _).bind fun _ => hbody
  · exact hbody

/-- A run of the program that sends a request and keeps the history in the file at a path, together
with what it reads before it comes to the exchange. -/
structure SendRun (path : Path) (limit : Nat) where
  around : Surroundings
  arguments : List Text
  /-- The files as they are found. -/
  files : Files
  supply : Supply
  settingsFile : Option Text
  logLevel : Option Text
  options : SendOptions
  settings : Settings
  threshold : Value
  /-- The request before the options override it, and what is left of the supply then. -/
  base : SavedRequest
  later : Supply
  request : SavedRequest
  environments : Option EnvironmentStore
  reads : Invocation.read arguments = .ok ⟨settingsFile, logLevel, some (.send options)⟩
  configured : Settings.load files .null (Value.ofText? settingsFile) = .ok settings
  leveled : Log.threshold ((Value.ofText? logLevel).orElse settings.logLevel) = .ok threshold
  limited : settings.historyLimit = .int limit
  named : (historyFile options.historyFile settings).isTrue = true
  directed : Path.ofValue (historyFile options.historyFile settings) = .ok path
  loaded : baseRequest options.request around.input files supply = .ok (base, later)
  overridden : override options.request base = .ok request
  equipped : environmentsIn options.request settings files = .ok environments

namespace SendRun

variable {path : Path} {limit : Nat}

/-- The files after the run. -/
def after (r : SendRun path limit) : Files :=
  (run r.around r.arguments (.start r.files r.supply)).2.files

/-- The command line as it is read. -/
def invocation (r : SendRun path limit) : Invocation :=
  ⟨r.settingsFile, r.logLevel, some (.send r.options)⟩

/-- The header table of the request; other headers are none. -/
def headers (r : SendRun path limit) : List (Value × Value) :=
  (r.request.headers.entriesFor "items").toOption.getD []

/-- What the request is sent with. -/
def service (r : SendRun path limit) (history : Option History) : Service where
  environments := r.environments.getD .empty
  timeout := r.options.timeout.getD r.settings.timeout
  history

/-- What comes of the exchange. -/
def result (r : SendRun path limit) : Result Response :=
  ((r.service none).sendSaved r.request .null r.around.outcome r.later.now).2.2

/-- The entry that the run records, if any. Its number is the clock's, and positive. -/
def recorded? (r : SendRun path limit) : Option HistoryEntry :=
  Service.entryFor? r.request r.headers (if r.later.now ≤ 0 then 1 else r.later.now) r.later.now
    r.result

/-- An exchange leaves an entry exactly when a response came of it or it failed as exchanges do. -/
theorem isSome_recorded?_iff (r : SendRun path limit) :
    r.recorded?.isSome = true ↔ (∃ response, r.result = .ok response) ∨
      ∃ failure, r.result = .error failure ∧ isSendFailure failure = true := by
  unfold recorded? Service.entryFor?
  cases r.result with
  | ok response => simp
  | error failure => cases failure <;> simp [isSendFailure]

/-- The command is carried out with the settings, and what comes after it changes no files. -/
theorem after_eq_runSend (r : SendRun path limit) :
    r.after =
      ((runSend r.around r.settings r.options).outcome (.start r.files r.supply)).2.files := by
  have hprogram : r.after =
      ((invoke r.around r.invocation).outcome (.start r.files r.supply)).2.files := by
    change ((program r.around r.arguments).outcome _).2.files = _
    rw [program, r.reads]
    rfl
  have hinvoke : (invoke r.around r.invocation).outcome (.start r.files r.supply) =
      (carryOut r.around r.invocation r.settings).outcome (.start r.files r.supply) := by
    rw [invoke, outcome_bind_of_ok Action.outcome_get]
    simp only [Session.start, invocation, r.configured]
  rw [hprogram, hinvoke, invocation, carryOut, r.leveled,
    outcome_bind_of_ok (Action.outcome_ofResult _)]
  exact (files_bind (fun _ => keepsFiles_pure _) _ _).trans (files_guarded _ _)

theorem outcome_describedRequest (r : SendRun path limit) :
    (describedRequest r.around r.options.request).outcome (.start r.files r.supply) =
      (.ok r.request, .start r.files r.later) := by
  rw [describedRequest, outcome_bind_of_ok Action.outcome_get]
  simp only [Session.start, r.loaded]
  rw [outcome_bind_of_ok (Action.outcome_ofResult _), outcome_bind_of_ok Action.outcome_set,
    r.overridden]
  rfl

theorem outcome_loadEnvironments (r : SendRun path limit) :
    (loadEnvironments r.options.request r.settings).outcome (.start r.files r.later) =
      (.ok r.environments, .start r.files r.later) := by
  rw [loadEnvironments, outcome_bind_of_ok Action.outcome_get]
  simp only [Session.start, r.equipped]
  rfl

theorem outcome_recordingHistory (r : SendRun path limit) {h : History}
    (hload : History.load r.files path (.int limit) = .ok h) :
    (recordingHistory (historyFile r.options.historyFile r.settings) r.settings).outcome
      (.start r.files r.later) = (.ok (some h), .start r.files r.later) := by
  rw [recordingHistory, if_pos r.named, outcome_bind_of_ok Action.outcome_get]
  simp only [Session.start, historyIn, r.directed, ok_bind, r.limited, hload]
  rfl

/-- The history after the run, from the one that it loads. -/
def record (r : SendRun path limit) (h : History) : History :=
  Service.historyAfter h r.request r.headers r.later.now r.result

theorem exists_outcome_exchange (r : SendRun path limit) {h : History}
    (hlimit : h.limit = .int limit) :
    ∃ calls, (exchange r.around (r.service (some h)) r.request).outcome (.start r.files r.later) =
      (.ok (r.service (some (r.record h)), r.result),
        { Session.start r.files r.later with calls }) := by
  obtain ⟨⟨calls, s', result⟩, hsend⟩ : ∃ sent, (r.service none).sendSaved r.request .null
    r.around.outcome r.later.now = sent := ⟨_, rfl⟩
  have hresult : r.result = result := by rw [SendRun.result, hsend]
  have hrecorded := Service.sendSaved_eq_recorded (r.service (some h)) rfl hlimit r.request .null
    r.around.outcome r.later.now hsend
  refine ⟨calls, ?_⟩
  rw [exchange, outcome_bind_of_ok Action.outcome_get]
  simp only [Session.start, hrecorded, record, headers, hresult]
  rfl

theorem files_saveHistory (r : SendRun path limit) (h : History) (s : Session) :
    ((saveHistory (historyFile r.options.historyFile r.settings) h).outcome s).2.files =
      (h.save s.files path).1 := by
  rw [saveHistory, r.directed, outcome_bind_of_ok (Action.outcome_ofResult _),
    Action.outcome_changeFiles]

/-- The run saves the history that it loaded together with the entry for its exchange. -/
theorem after_eq_save (r : SendRun path limit) {h : History}
    (hload : History.load r.files path (.int limit) = .ok h) (hlimit : h.limit = .int limit) :
    r.after = ((r.record h).save r.files path).1 := by
  -- After saving, the response is shown or the failure handed on: the files stay.
  have hsave (ending : Action Nat) (hending : KeepsFiles ending) (s : Session)
      (hs : s.files = r.files) :
      ((saveHistory (historyFile r.options.historyFile r.settings) (r.record h) >>=
        fun _ => ending).outcome s).2.files = ((r.record h).save r.files path).1 := by
    rw [files_bind fun _ => hending, files_saveHistory, hs]
  obtain ⟨calls, hexchange⟩ := r.exists_outcome_exchange hlimit
  rw [after_eq_runSend, runSend, outcome_bind_of_ok r.outcome_describedRequest,
    outcome_bind_of_ok r.outcome_loadEnvironments,
    outcome_bind_of_ok (r.outcome_recordingHistory hload)]
  change (outcome (exchange r.around (r.service (some h)) r.request >>= _) _).2.files = _
  rw [outcome_bind_of_ok hexchange]
  cases r.result with
  | ok response =>
    exact hsave _ ((keepsFiles_showResponse response _).bind fun _ => keepsFiles_pure _) _ rfl
  | error failure =>
    by_cases hfailure : isSendFailure failure = true
    · simp only [if_pos hfailure]
      rw [outcome_bind_of_ok (show (Action.warn _).outcome _ = (.ok (), _) from rfl)]
      exact hsave _ (keepsFiles_pure 1) _ rfl
    · simp only [if_neg hfailure]
      exact hsave _ (keepsFiles_throw failure) _ rfl

/-- What is cut off before others are put in front would be cut off after that, too. -/
theorem take_append_take (n : Nat) (xs ys : List HistoryEntry) :
    (xs ++ ys.take n).take n = (xs ++ ys).take n := by
  simp [List.take_append, List.take_take]

/-- An entry is recorded in front of those that were loaded, and the oldest go beyond the limit. -/
theorem entries_record (r : SendRun path limit) (entries : List HistoryEntry) :
    (r.record ⟨entries.take limit, .int limit, 0⟩).entries =
      (r.recorded?.toList ++ entries).take limit := by
  have hentry : r.recorded? = Service.entryFor? r.request r.headers
    (History.nextNumber ⟨entries.take limit, .int limit, 0⟩ r.later.now) r.later.now r.result := rfl
  rw [record, Service.historyAfter, ← hentry]
  cases r.recorded? with
  | none => rfl
  | some e =>
    have hkept : History.keptCount limit ((entries.take limit).length + 1) = limit :=
      if_neg (by omega)
    change (e :: entries.take limit).take (History.keptCount limit _) = _
    rw [hkept]
    exact take_append_take limit [e] entries

/-- After the run the file holds its entry in front of those that it held before, up to the
limit. -/
theorem isIn_after (r : SendRun path limit) {key : FileKey} {entries : List HistoryEntry}
    (hheld : History.IsIn entries r.files path key)
    (hentries : ∀ e ∈ entries.take limit, e.Storable) (hentry : ∀ e ∈ r.recorded?, e.Storable) :
    r.after.readDocument path (History.documentFailures path) =
      .ok (.list (((r.recorded?.toList ++ entries).take limit).map HistoryEntry.document)) ∧
    History.IsIn ((r.recorded?.toList ++ entries).take limit) r.after path key := by
  have hafter := r.after_eq_save (hheld.load limit) rfl
  have hstorable : ∀ e ∈ (r.record ⟨entries.take limit, .int limit, 0⟩).entries, e.Storable := by
    intro e he
    rw [entries_record, ← take_append_take] at he
    rcases List.mem_append.mp (List.mem_of_mem_take he) with he | he
    · exact hentry e (Option.mem_toList.mp he)
    · exact hentries e he
  rw [hafter, ← entries_record]
  exact History.save_isIn hheld.reaches hstorable

end SendRun

end HttpWorkbench.CommandLine
