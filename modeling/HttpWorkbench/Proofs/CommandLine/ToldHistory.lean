import HttpWorkbench.CommandLine.HistoryCommand
import HttpWorkbench.Proofs.CommandLine.OfferedInput
import HttpWorkbench.Proofs.History.Offered

/-!
# Histories that are shown, searched or cleared

Where a history file offers a history, each entry of it has a row, and the command ends with a code.
-/

namespace HttpWorkbench

namespace CommandLine

open CommandLine.Action (Ensures)
open Failure (IsTold)

/-! ## The history file -/

variable {option : Option Text} {settings : Settings} {files : Files}
  {around : Surroundings} {o : HistoryOptions}

/-- The history file that is named, if there is one, offers a history. -/
def OffersHistory (option : Option Text) (settings : Settings) (files : Files) : Prop :=
  ∀ name, historyFile option settings = .str name → name ≠ "" →
    files.Offers History.FitsDocument (.ofText name)

/-- The system can be given the path of the history file that is named. -/
def CanNameHistory (option : Option Text) (settings : Settings) : Prop :=
  ∀ name, historyFile option settings = .str name → name ≠ "" →
    Files.pathFault? (.ofText name) = none

/-- The history in the file that is named, if there is one, can be loaded. -/
def LoadsHistory (option : Option Text) (settings : Settings) (files : Files) : Prop :=
  (historyFile option settings).isTrue = true →
    ∃ h, historyIn (historyFile option settings) settings files = .ok h

/-- A history file is named, or none is. -/
theorem historyFile_cases (option : Option Text) (hsettings : settings.AreUsable) :
    (historyFile option settings).isTrue = false ∨
      ∃ name : Text, historyFile option settings = .str name ∧ name ≠ "" := by
  obtain ⟨file, hfile⟩ := exists_orElse option hsettings.historyFile
  change historyFile option settings = _ at hfile
  rw [hfile]
  cases file with
  | none => exact .inl rfl
  | some name =>
    by_cases hname : name = ""
    · exact .inl (hname ▸ rfl)
    · exact .inr ⟨name, rfl, hname⟩

theorem isTrue_of_ne_empty {name : Text} (h : name ≠ "") : (Value.str name).isTrue = true := by
  cases name with
  | nil => exact absurd rfl h
  | cons c rest => rfl

theorem isTold_of_isRefusal {failure : Failure} (h : History.IsRefusal failure) : failure.IsTold :=
  .inr h

theorem OffersHistory.yields_historyIn (h : OffersHistory option settings files)
    (hsettings : settings.AreUsable) {name : Text} (hfile : historyFile option settings = .str name)
    (hname : name ≠ "") :
    Yields History.IsUsable IsTold (historyIn (.str name) settings files) := by
  obtain ⟨limit, hlimit⟩ := hsettings.limit
  have hpath : Path.ofValue (.str name) = .ok (.ofText name) := rfl
  rw [historyIn, hpath, ok_bind, hlimit]
  exact (History.yields_load (h name hfile hname) limit).imp (fun _ h => h)
    fun _ => isTold_of_isRefusal

/-- Entries that can be saved are saved, or it is told why not. -/
theorem CanNameHistory.ensures_saveHistory (h : CanNameHistory option settings) {name : Text}
    (hfile : historyFile option settings = .str name) (hname : name ≠ "") {h' : History}
    (hentries : ∀ e ∈ h'.entries, e.Storable) {Q : Session → Prop}
    (hQ : ∀ s files, Q s → Q { s with files := files }) :
    Ensures Q (saveHistory (.str name) h') (fun _ => Q) fun failure _ => failure.IsTold := by
  have hpath : Path.ofValue (.str name) = .ok (.ofText name) := rfl
  refine .ofResult_bind hpath fun s hs => ?_
  rw [Action.outcome_changeFiles]
  exact (History.yields_save hentries (h name hfile hname) s.files).imp (fun _ _ => hQ s _ hs)
    fun _ => isTold_of_isRefusal

/-! ## Rows -/

theorem exists_wholeNumber {v : Value} (h : v.IsNumber) : ∃ text, wholeNumber v = .ok text := by
  rcases h with ⟨x, rfl⟩ | ⟨n, x, hn, hx⟩
  · exact ⟨_, rfl⟩
  · refine ⟨x.wholeText, ?_⟩
    cases v with
    | bool b | int k => simp only [wholeNumber, hn, hx]
    | _ => cases hn

theorem exists_timeText {e : HistoryEntry} (h : e.responseTime = .null ∨ e.responseTime.IsNumber) :
    ∃ text, timeText e = .ok text := by
  rcases h with hnull | hnumber
  · exact ⟨"-", by rw [timeText, hnull]⟩
  · obtain ⟨text, htext⟩ := exists_wholeNumber hnumber
    unfold timeText
    split
    · exact ⟨_, rfl⟩
    · rw [htext]
      exact ⟨_, rfl⟩

/-- An entry that fits has a row. -/
theorem exists_historyRow {e : HistoryEntry} (h : e.Fits) : ∃ row, historyRow e = .ok row := by
  obtain ⟨time, htime⟩ := exists_timeText h.time
  obtain ⟨method, hmethod⟩ := h.method
  obtain ⟨url, hurl⟩ := h.url
  obtain ⟨stamp, hstamp⟩ := h.timestamp
  obtain ⟨tags, htags⟩ := h.tags
  have hjoined : (Value.list (tags.map .str)).joined ", " = .ok (Text.join ", " tags) := by
    change (Value.joinFrom ", " 0 (tags.map .str) >>= fun texts => Except.ok (Text.join ", " texts)) = _
    rw [Value.joinFrom_map_str]
    rfl
  rw [historyRow, htime, ok_bind, hstamp, htags, hmethod, hurl, hjoined]
  exact ⟨_, rfl⟩

/-! ## The command -/

/-- The options of the history fit: the file that they or the settings name offers a history, and can
be named when it is to be cleared. -/
structure HistoryOptions.Fits (o : HistoryOptions) (settings : Settings) (files : Files) : Prop where
  history : OffersHistory o.historyFile settings files
  path : o.clear = true → CanNameHistory o.historyFile settings

theorem yields_chosenEntries (search : Option Text) {h : History} (hh : h.IsUsable) :
    Yields (fun entries => ∀ e ∈ entries, e.Fits) IsTold (chosenEntries search h) := by
  unfold chosenEntries
  cases given? search with
  | none =>
    obtain ⟨entries, hsorted, hfits⟩ := History.exists_sorted hh.entries
    exact .of_ok hsorted hfits
  | some query =>
    obtain ⟨entries, hfound, hfits⟩ := History.exists_search hh.entries query
    exact .of_ok hfound hfits

/-- A history file is named, and its history can be loaded. -/
def HistoryOptions.Works (o : HistoryOptions) (settings : Settings) (files : Files) : Prop :=
  (CommandLine.historyFile o.historyFile settings).isTrue = true ∧
    LoadsHistory o.historyFile settings files

/-- A history command that fits ends with a code. -/
theorem HistoryOptions.Fits.ensures_runHistory (h : o.Fits settings files)
    (hsettings : settings.AreUsable) :
    Ensures (·.files = files) (runHistory settings o)
      (EndsWithCode (o.Works settings files) around.outcome) fun failure _ => failure.IsTold := by
  have hshow (hworks : o.Works settings files) {P : Session → Prop} (console : Console) (d : Display) :
      Ensures P (Action.show console d >>= fun _ => pure 0)
        (EndsWithCode (o.Works settings files) around.outcome) fun failure _ => failure.IsTold :=
    (ensures_show _ _).bind fun _ => .pure fun _ _ => .inl ⟨rfl, hworks⟩
  unfold runHistory
  dsimp only
  rcases historyFile_cases o.historyFile hsettings with hnone | ⟨name, hfile, hname⟩
  · rw [hnone]
    exact ensures_tells_pure _
  · rw [hfile, isTrue_of_ne_empty hname]
    refine .get_bind fun s hs => ?_
    subst hs
    have hloaded := (h.history.yields_historyIn hsettings hfile hname).with_eq
    refine .ofResult_bind_of_yields hloaded fun found hfound => ?_
    have hworks : o.Works settings s.files := by
      rw [HistoryOptions.Works, LoadsHistory, hfile]
      exact ⟨isTrue_of_ne_empty hname, fun _ => ⟨found, hfound.2⟩⟩
    cases hclear : o.clear with
    | true =>
      have hentries : ∀ e ∈ found.clear.entries, e.Storable := List.forall_mem_nil _
      have hsaved := (h.path hclear).ensures_saveHistory (Q := fun _ => True) hfile hname hentries
        fun _ _ _ => trivial
      exact (hsaved.bind fun _ => hshow hworks _ _).of_before fun _ _ => trivial
    | false =>
      have hchosen := yields_chosenEntries o.search hfound.1
      refine .ofResult_bind_of_yields hchosen fun entries hfits => ?_
      obtain ⟨rows, hrows⟩ : ∃ rows, entries.mapM historyRow = .ok rows :=
        exists_mapM_eq_ok_iff.mpr fun e he => exists_historyRow (hfits e he)
      split
      · exact hshow hworks _ _
      · exact .ofResult_bind hrows (hshow hworks _ _)

end CommandLine

end HttpWorkbench
