import HttpWorkbench.Proofs.CommandLine.SendRun
import HttpWorkbench.Proofs.Sending.StoredEntry
import Mathlib

/-!
# Runs that send

The program is run time and again to send requests, each time in a process of its own that finds in
the history file what the run before left there. The file always holds the latest entries of all
runs, newest first, in front of those that it held at first.
-/

namespace HttpWorkbench.CommandLine

namespace SendRun

variable {path : Path} {limit : Nat}

theorem filterMap_recorded?_cons (r : SendRun path limit) (runs : List (SendRun path limit)) :
    (r :: runs).filterMap recorded? = r.recorded?.toList ++ runs.filterMap recorded? := by
  rw [List.filterMap_cons]
  cases r.recorded? <;> rfl

theorem storable_of_mem {entries : List HistoryEntry}
    (hentries : ∀ e ∈ entries.take limit, e.Storable) {runs : List (SendRun path limit)}
    (hruns : ∀ r ∈ runs, ∀ e ∈ r.recorded?, e.Storable) {e : HistoryEntry}
    (he : e ∈ (runs.filterMap recorded? ++ entries).take limit) : e.Storable := by
  rw [← take_append_take] at he
  rcases List.mem_append.mp (List.mem_of_mem_take he) with he | he
  · obtain ⟨r, hr, he⟩ := List.mem_filterMap.mp he
    exact hruns r hr e he
  · exact hentries e he

end SendRun

/-- Runs one after the other, the latest first: each finds in the file at the path what the run
before left there. -/
inductive SendRuns (path : Path) (limit : Nat) : Files → List (SendRun path limit) → Files → Prop
  | first (r : SendRun path limit) : SendRuns path limit r.files [r] r.after
  | next {start files : Files} {runs : List (SendRun path limit)}
      (h : SendRuns path limit start runs files) (r : SendRun path limit)
      (hfound : r.files.locate path = files.locate path) :
      SendRuns path limit start (r :: runs) r.after

/-- After runs, the file holds their entries in front of those that it held at first, up to the
limit. -/
theorem SendRuns.isIn {path : Path} {limit : Nat} {start files : Files}
    {runs : List (SendRun path limit)} (h : SendRuns path limit start runs files) {key : FileKey}
    {entries : List HistoryEntry} (hheld : History.IsIn entries start path key)
    (hentries : ∀ e ∈ entries.take limit, e.Storable)
    (hruns : ∀ r ∈ runs, ∀ e ∈ r.recorded?, e.Storable) :
    files.readDocument path (History.documentFailures path) =
      .ok (.list (((runs.filterMap SendRun.recorded? ++ entries).take limit).map
        HistoryEntry.document)) ∧
    History.IsIn ((runs.filterMap SendRun.recorded? ++ entries).take limit) files path key := by
  induction h with
  | first r =>
    rw [SendRun.filterMap_recorded?_cons, List.filterMap_nil, List.append_nil]
    exact r.isIn_after hheld hentries (hruns r List.mem_cons_self)
  | next h r hfound ih =>
    have hothers := fun r' hr' => hruns r' (List.mem_cons_of_mem r hr')
    obtain ⟨-, hbefore⟩ := ih hheld hothers
    have hafter := r.isIn_after (hbefore.congr hfound)
      (fun e he => SendRun.storable_of_mem hentries hothers (List.mem_of_mem_take he))
      (hruns r List.mem_cons_self)
    -- What the runs before cut off would be cut off behind the new entry, too.
    rw [SendRun.take_append_take, ← List.append_assoc, ← SendRun.filterMap_recorded?_cons] at hafter
    exact hafter

/-- After each of any runs that send, the file at the path holds their entries, the latest first, in
front of those that it held at first, cut to the limit and not changed otherwise; a run adds one
entry when it ended in a response or in a failure of the exchange, and none when anything else went
wrong. -/
theorem SendRuns.file_holds_newest {path : Path} {limit : Nat} {start files : Files}
    {runs : List (SendRun path limit)} (h : SendRuns path limit start runs files) {key : FileKey}
    {entries : List HistoryEntry} (hheld : History.IsIn entries start path key)
    (hentries : ∀ e ∈ entries.take limit, e.Storable)
    (hruns : ∀ r ∈ runs, ∀ e ∈ r.recorded?, e.Storable) :
    files.readDocument path (History.documentFailures path) =
      .ok (.list (((runs.filterMap SendRun.recorded? ++ entries).take limit).map
        HistoryEntry.document)) ∧
    ∀ r ∈ runs, (r.recorded?.isSome = true ↔ (∃ response, r.result = .ok response) ∨
      ∃ failure, r.result = .error failure ∧ isSendFailure failure = true) :=
  ⟨(h.isIn hheld hentries hruns).1, fun r _ => r.isSome_recorded?_iff⟩

/-! ## A history in a directory below -/

/-- A run that sends to a url, is answered, and keeps the history in a directory below. -/
def SendRun.answered (files : Files) (supply : Supply) :
    SendRun (.ofText "logs/history.json") 50 where
  around :=
    { registry := .empty
      outcome := .ok ⟨.int 200, .str "OK", .str "fine", .map [], .int 0⟩
      input := ""
      isTerminal := false }
  arguments := ["send", "-u", "https://x", "--history-file", "logs/history.json"]
  files := files
  supply := supply
  settingsFile := none
  logLevel := none
  options :=
    { request := ⟨none, false, none, some "https://x", [], none, none, none⟩
      timeout := none
      historyFile := some "logs/history.json"
      showHeaders := false }
  settings := .default
  threshold := .int 30
  base := (SavedRequest.ofArguments [("method", .str "GET"), ("url", .str "https://x")] supply).1
  later := (SavedRequest.ofArguments [("method", .str "GET"), ("url", .str "https://x")] supply).2
  request := (SavedRequest.ofArguments [("method", .str "GET"), ("url", .str "https://x")] supply).1
  environments := none
  reads := rfl
  configured := rfl
  leveled := rfl
  limited := rfl
  named := rfl
  directed := rfl
  loaded := rfl
  overridden := rfl
  equipped := rfl

theorem SendRun.exists_recorded?_answered (files : Files) (supply : Supply) :
    ∃ e, (SendRun.answered files supply).recorded? = some e ∧ e.Storable := by
  obtain ⟨r, hr⟩ : ∃ r, r = SendRun.answered files supply := ⟨_, rfl⟩
  have hrequest : r.request.IsStorable r.headers := by
    rw [hr]
    exact ⟨.str (by decide), .str (by decide), .null, nofun⟩
  obtain ⟨response, hresult, hresponse⟩ :
      ∃ response, r.result = .ok response ∧ response.IsStorable := by
    rw [hr]
    exact ⟨_, rfl, .int (by decide), .str (by decide), .float nofun, .str (by decide), .noFields⟩
  obtain ⟨e, he⟩ := Option.isSome_iff_exists.mp (r.isSome_recorded?_iff.mpr (.inl ⟨_, hresult⟩))
  refine ⟨e, hr ▸ he, Service.storable_entryFor? hrequest (fun _ h => ?_) (fun _ h => ?_) he⟩
  · exact Except.ok.inj (hresult.symm.trans h) ▸ hresponse
  · cases hresult.symm.trans h

/-- The files with an empty directory for the history. -/
def emptyLogs : Files := ⟨[(["logs"], .directory)]⟩

theorem pathFault?_logs : Files.pathFault? (.ofText "logs/history.json") = none := by
  cbv

theorem locate_emptyLogs :
    emptyLogs.locate (.ofText "logs/history.json") = .ok (.vacant ["logs", "history.json"]) := by
  cbv

/-- Two runs, the second of which finds what the first left. -/
theorem SendRuns.file_holds_newest_twice :
    ∃ (first second : SendRun (.ofText "logs/history.json") 50) (e e' : HistoryEntry),
      second.files = first.after ∧ first.recorded? = some e ∧ second.recorded? = some e' ∧
      second.after.readDocument (.ofText "logs/history.json")
        (History.documentFailures (.ofText "logs/history.json")) =
          .ok (.list [e'.document, e.document]) := by
  obtain ⟨first, hfirst⟩ : ∃ r, r = SendRun.answered emptyLogs ⟨1, 0⟩ := ⟨_, rfl⟩
  obtain ⟨second, hsecond⟩ : ∃ r, r = SendRun.answered first.after ⟨2, 0⟩ := ⟨_, rfl⟩
  have hfound : second.files = first.after := by rw [hsecond]; rfl
  obtain ⟨e, he, hstorable⟩ :=
    SendRun.exists_recorded?_answered emptyLogs ⟨1, 0⟩
  obtain ⟨e', he', hstorable'⟩ :=
    SendRun.exists_recorded?_answered first.after ⟨2, 0⟩
  rw [← hfirst] at he
  rw [← hsecond] at he'
  have hheld : History.IsIn [] first.files (.ofText "logs/history.json")
      ["logs", "history.json"] := by
    rw [hfirst]
    exact ⟨⟨pathFault?_logs, .inl locate_emptyLogs⟩, .inl ⟨locate_emptyLogs, rfl⟩⟩
  have hruns : ∀ r ∈ [second, first], ∀ e ∈ r.recorded?, e.Storable := by
    simp only [List.forall_mem_cons, he, he', Option.mem_some_iff, forall_eq']
    exact ⟨hstorable', hstorable, by simp⟩
  have h := SendRuns.file_holds_newest (.next (.first first) second (by rw [hfound])) hheld nofun
    hruns
  refine ⟨first, second, e, e', hfound, he, he', ?_⟩
  rw [h.1]
  simp [he, he']

/-- An entry whose body is 500 lists in one another. -/
def deepEntry : HistoryEntry where
  id := .str "a"
  method := .str "GET"
  url := .str "https://a"
  timestamp := .str "t"
  headers := .list []
  body := nested 499
  status := .null
  statusText := .null
  responseTime := .null
  responseBody := .null
  responseHeaders := .map []
  tags := .list []
  error := .null

theorem isDocument_deepEntry : Json.IsDocument 502 (.list [deepEntry.document]) := by
  have hfields : ∀ f ∈ deepEntry.fields, Json.IsDocument 500 f.2 := by
    simp only [HistoryEntry.fields, deepEntry, List.forall_mem_cons]
    exact ⟨.str (by decide), .str (by decide), .str (by decide), .str (by decide), .noItems,
      isDocument_nested 499, .null, .null, .null, .null, .noFields, .noItems, .null,
      List.forall_mem_nil _⟩
  exact .list fun v hv => List.mem_singleton.mp hv ▸ HistoryEntry.isDocument_document hfields

theorem exists_toValue_deepEntry : ∃ failure, deepEntry.toValue = .error failure := by
  have hbody : (("body" : Text), nested 499) ∈ deepEntry.fields := by
    simp [HistoryEntry.fields, deepEntry]
  exact HistoryEntry.exists_toValue_error hbody (spread_nested (by decide))

/-- The files with a directory that holds a history. -/
def logsWith (content : Content) : Files :=
  ⟨[(["logs"], .directory), (["logs", "history.json"], .file content)]⟩

theorem locate_logsWith (content : Content) :
    (logsWith content).locate (.ofText "logs/history.json") =
      .ok (.file ["logs", "history.json"] content) := by
  cbv

/-- The files with a history that holds the entry with these lists. -/
def deepLogs : Files := logsWith (.text (Json.write .file (.list [deepEntry.document])).text)

theorem isIn_deepLogs :
    History.IsIn [deepEntry] deepLogs (.ofText "logs/history.json") ["logs", "history.json"] := by
  have hlocate := locate_logsWith (.text (Json.write .file (.list [deepEntry.document])).text)
  have hread := Files.readDocument_of_written pathFault?_logs hlocate isDocument_deepEntry
    (by decide) (History.documentFailures (.ofText "logs/history.json"))
  exact ⟨⟨pathFault?_logs, .inr ⟨_, hlocate⟩⟩, .inr ⟨_, _, hlocate, hread, rfl⟩⟩

/-- Where the directory of the history is missing, the entry of a run that was answered is in no
file, and a history with an entry that nests too deep is lost. -/
theorem SendRun.answered_loses_entries :
    Files.empty.pathExists (.ofText "logs/history.json") = .ok false ∧
    (∃ e, (SendRun.answered .empty ⟨1, 0⟩).recorded? = some e) ∧
    (SendRun.answered .empty ⟨1, 0⟩).after = .empty ∧
    History.IsIn [deepEntry] deepLogs (.ofText "logs/history.json") ["logs", "history.json"] ∧
    (∃ e, (SendRun.answered deepLogs ⟨1, 0⟩).recorded? = some e) ∧
    (SendRun.answered deepLogs ⟨1, 0⟩).after.openFile (.ofText "logs/history.json") =
      .ok (.text "") := by
  obtain ⟨e, he, -⟩ := SendRun.exists_recorded?_answered .empty ⟨1, 0⟩
  obtain ⟨e', he', -⟩ := SendRun.exists_recorded?_answered deepLogs ⟨1, 0⟩
  have habsent : Files.empty.locate (.ofText "logs/history.json") = .error .notFound := by cbv
  have hthere : Files.empty.pathExists (.ofText "logs/history.json") = .ok false := by
    simp [Files.pathExists, pathFault?_logs, habsent]
  have hload : History.load .empty (.ofText "logs/history.json") (.int (50 : Nat)) =
      .ok (.new (.int (50 : Nat))) := by
    rw [History.load, hthere]
    rfl
  refine ⟨hthere, ⟨e, he⟩, ?_, isIn_deepLogs, ⟨e', he'⟩, ?_⟩
  · have hafter := (SendRun.answered .empty ⟨1, 0⟩).after_eq_save hload rfl
    exact hafter.trans (History.save_of_locate_error habsent _)
  · obtain ⟨failure, hfailure⟩ := exists_toValue_deepEntry
    have hafter := (SendRun.answered deepLogs ⟨1, 0⟩).after_eq_save (isIn_deepLogs.load 50) rfl
    have hmem : deepEntry ∈ ((SendRun.answered deepLogs ⟨1, 0⟩).record
        ⟨[deepEntry].take 50, .int (50 : Nat), 0⟩).entries := by
      rw [SendRun.entries_record, he']
      exact List.mem_cons_of_mem e' List.mem_cons_self
    have hsave : (SendRun.answered deepLogs ⟨1, 0⟩).after =
        deepLogs.put ["logs", "history.json"] (.file (.text "")) :=
      hafter.trans (History.save_of_toValue_error isIn_deepLogs.reaches hmem hfailure)
    rw [hsave, Files.openFile, pathFault?_logs, isIn_deepLogs.reaches.locate_put]

end HttpWorkbench.CommandLine
