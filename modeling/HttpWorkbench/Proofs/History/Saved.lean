import HttpWorkbench.Proofs.History.Reloaded
import HttpWorkbench.Proofs.Value.Unmarked

/-!
# Histories that are loaded as they were saved

A history that can be reached holds no more entries than its limit, unless this is negative, so that
nothing is cut off when it is loaded with the same limit. Its fields are read back one by one as they
were, except that all that is no number is alike in a document. What is loaded is saved as the same
text, wherever that is.
-/

namespace HttpWorkbench

open Json (IsDocument)

/-- The entry with the marks of documents. -/
def HistoryEntry.unmarked (e : HistoryEntry) : HistoryEntry where
  id := e.id.unmarked
  method := e.method.unmarked
  url := e.url.unmarked
  timestamp := e.timestamp.unmarked
  headers := e.headers.unmarked
  body := e.body.unmarked
  status := e.status.unmarked
  statusText := e.statusText.unmarked
  responseTime := e.responseTime.unmarked
  responseBody := e.responseBody.unmarked
  responseHeaders := e.responseHeaders.unmarked
  tags := e.tags.unmarked
  error := e.error.unmarked

theorem HistoryEntry.fields_unmarked (e : HistoryEntry) :
    e.unmarked.fields = e.fields.map fun f => (f.1, f.2.unmarked) := rfl

theorem HistoryEntry.toValue_unmarked (e : HistoryEntry) :
    e.unmarked.toValue = e.toValue.map Value.unmarked := by
  rw [toValue, fields_unmarked, Value.storedFields_unmarked, toValue]
  cases Value.storedFields e.fields <;> rfl

/-- An entry made of documents has their marks only. -/
theorem HistoryEntry.Storable.unmarked_eq {e : HistoryEntry} (h : e.Storable) : e.unmarked = e := by
  have hfields : e.unmarked.fields = e.fields := by
    rw [fields_unmarked]
    refine (List.map_congr_left fun f hf => ?_).trans (List.map_id' _)
    exact congrArg (Prod.mk f.1) (h f hf).unmarked_eq
  have hdocument : e.unmarked.document = e.document := congrArg Value.ofFields hfields
  have hentry := congrArg HistoryEntry.ofValue hdocument
  rw [ofValue_document, ofValue_document] at hentry
  exact Except.ok.inj hentry

namespace History

/-- The history with the marks of documents. -/
def unmarked (h : History) : History := { h with entries := h.entries.map HistoryEntry.unmarked }

theorem toValue_unmarked (h : History) : h.unmarked.toValue = h.toValue.map Value.unmarked := by
  have hentries : h.unmarked.entries.mapM HistoryEntry.toValue =
      (h.entries.mapM HistoryEntry.toValue).map (List.map Value.unmarked) :=
    mapM_map_eq_map HistoryEntry.toValue_unmarked h.entries
  rw [toValue, hentries, toValue]
  cases h.entries.mapM HistoryEntry.toValue with
  | error failure => rfl
  | ok values =>
    exact congrArg (fun items => Except.ok (Value.list items)) (Value.unmarkedItems_eq values).symm

/-- A history is saved the same with its marks or without. -/
theorem save_unmarked (h : History) (files : Files) (path : Path) :
    h.unmarked.save files path = h.save files path := by
  have htext : Files.documentText h.unmarked.toValue = Files.documentText h.toValue := by
    rw [toValue_unmarked]
    cases h.toValue with
    | error failure => rfl
    | ok v =>
      have hwrite : Json.write .file v.unmarked = Json.write .file v :=
        Json.writeValue_unmarked .file 0 "" v
      exact congrArg (fun output : Json.Output => (output.text, output.fault.map (·.failure))) hwrite
  rw [save, save, Files.writeDocument, Files.writeDocument, htext]

/-! ## Histories that can be reached -/

/-- A history that was made or loaded with an integer for its limit, after any row of operations. -/
inductive Reachable : History → Prop
  | new (limit : Int) : Reachable (new (.int limit))
  | load {files : Files} {path : Path} {limit : Int} {h : History}
      (hload : load files path (.int limit) = .ok h) : Reachable h
  | step {h : History} (hh : Reachable h) (now : Int) (operation : Operation) :
      Reachable ((⟨h, []⟩ : Run).step now operation).history

/-- The entries are within the limit, unless this is negative. -/
def Bounded (h : History) : Prop :=
  ∃ limit : Int, h.limit = .int limit ∧ (0 ≤ limit → (h.entries.length : Int) ≤ limit)

/-- Trimming brings the entries within the limit. -/
theorem bounded_trimmed (entries : List HistoryEntry) (limit last : Int) :
    Bounded ⟨entries.take (keptCount limit entries.length), .int limit, last⟩ := by
  refine ⟨limit, rfl, fun hnonneg => ?_⟩
  rw [List.length_take, keptCount, if_neg (by omega)]
  omega

theorem bounded_load {files : Files} {path : Path} {limit : Int} {h : History}
    (hload : load files path (.int limit) = .ok h) : h.Bounded := by
  obtain ⟨there, -, hload⟩ := bind_eq_ok_iff.mp hload
  cases there with
  | false =>
    obtain rfl := Except.ok.inj hload
    exact ⟨limit, rfl, id⟩
  | true =>
    obtain ⟨data, -, hload⟩ := bind_eq_ok_iff.mp hload
    cases data with
    | list items =>
      obtain ⟨entries, -, hload⟩ := bind_eq_ok_iff.mp hload
      rw [trim_int { new (.int limit) with entries } (show _ = Value.int limit from rfl)] at hload
      obtain rfl := Except.ok.inj hload
      exact bounded_trimmed entries limit 0
    | _ => cases hload

/-- Every operation keeps the entries within the limit. -/
theorem Bounded.step {h : History} (hh : h.Bounded) (now : Int) (operation : Operation) :
    ((⟨h, []⟩ : Run).step now operation).history.Bounded := by
  obtain ⟨limit, hlimit, hbound⟩ := hh
  rcases Run.step_limit_cases ⟨h, []⟩ now operation hlimit with
    ⟨hstep, hlength⟩ | ⟨hstep, hlength⟩ | ⟨later, hnonneg, hstep, hlength⟩
  · refine ⟨limit, hstep, fun hnonneg => ?_⟩
    have hold := hbound hnonneg
    simp only at hlength
    omega
  · refine ⟨limit, hstep, fun hnonneg => ?_⟩
    rw [keptCount, if_neg (by omega)] at hlength
    omega
  · exact ⟨later, hstep, fun _ => hlength⟩

/-- A history that can be reached is within its limit, unless this is negative. -/
theorem Reachable.bounded {h : History} (hh : h.Reachable) : h.Bounded := by
  induction hh with
  | new limit => exact ⟨limit, rfl, id⟩
  | load hload => exact bounded_load hload
  | step _ now operation ih => exact ih.step now operation

/-! ## Saving and loading -/

section Saved

open Files (Reaches)

variable {files : Files} {path : Path} {key : FileKey} {h : History} {limit : Int}

/-- The text of a history file. -/
def fileText (entries : List HistoryEntry) : Text :=
  (Json.write .file (.list (entries.map HistoryEntry.document))).text

theorem storable_unmarked (hentries : ∀ e ∈ h.entries, e.unmarked.Storable) :
    ∀ e ∈ h.unmarked.entries, e.Storable := by
  intro e he
  obtain ⟨e', he', rfl⟩ := List.mem_map.mp he
  exact hentries e' he'

/-- Entries are saved as their text wherever a file can be written. -/
theorem save_unmarked_eq (hreaches : files.Reaches path key)
    (hentries : ∀ e ∈ h.entries, e.unmarked.Storable) :
    h.save files path =
      (files.put key (.file (.text (fileText (h.entries.map HistoryEntry.unmarked)))), .ok ()) := by
  rw [← save_unmarked]
  exact save_eq hreaches (storable_unmarked hentries)

/-- A history that can be reached, with a limit that is not negative, whose entries have values of
documents in their fields that do not nest too deep to be stored, up to the marks of what is no number.
It is saved, and with the same limit the file is loaded as a history with the same entries in the same
order, field by field, up to these marks. That history is saved as the same text, in this file or in
any other. -/
theorem load_save (hh : h.Reachable) (hlimit : h.limit = .int limit) (hnonneg : 0 ≤ limit)
    (hentries : ∀ e ∈ h.entries, e.unmarked.Storable) (hreaches : files.Reaches path key) :
    ∃ saved loaded text, h.save files path = (saved, .ok ()) ∧
      saved.openFile path = .ok (.text text) ∧
      load saved path (.int limit) = .ok loaded ∧
      loaded.entries = h.entries.map HistoryEntry.unmarked ∧ loaded.limit = h.limit ∧
      ((∀ e ∈ h.entries, e.Storable) → loaded.entries = h.entries) ∧
      ∀ files' path' key', files'.Reaches path' key' →
        ∃ saved', loaded.save files' path' = (saved', .ok ()) ∧
          saved'.openFile path' = .ok (.text text) := by
  obtain ⟨limit, rfl⟩ := Int.eq_ofNat_of_zero_le hnonneg
  have hstorable := storable_unmarked hentries
  have hopen {files' : Files} {path' : Path} {key' : FileKey} (hreaches' : files'.Reaches path' key')
      (text : Text) : (files'.put key' (.file (.text text))).openFile path' = .ok (.text text) :=
    Files.openFile_of_file hreaches'.given (hreaches'.locate_put (.text text))
  have hload := (save_isIn hreaches hstorable).2.load limit
  have hall : h.unmarked.entries.take limit = h.unmarked.entries := by
    obtain ⟨limit', hlimit', hbound⟩ := hh.bounded
    obtain rfl : (limit : Int) = limit' := Value.int.inj (hlimit.symm.trans hlimit')
    refine List.take_of_length_le ?_
    rw [unmarked, List.length_map]
    exact_mod_cast hbound hnonneg
  rw [hall, save_unmarked, save_unmarked_eq hreaches hentries] at hload
  refine ⟨_, _, _, save_unmarked_eq hreaches hentries, hopen hreaches _, hload, rfl, hlimit.symm,
    ?_, ?_⟩
  · intro hsame
    refine (List.map_congr_left fun e he => ?_).trans (List.map_id' _)
    exact (hsame e he).unmarked_eq
  · intro files' path' key' hreaches'
    exact ⟨_, save_eq hreaches' hstorable, hopen hreaches' _⟩

/-- The history with one entry, of a request with one more field. -/
def withField (field : Value × Value) : History :=
  ((⟨new (.int 50), []⟩ : Run).step 1704067200000 (.add (bareFields "https://x" ++ [field]))).history

/-- Documents in two fields of an entry that is made of documents otherwise. -/
theorem isDocument_bareEntry_with {depth : Nat} (hdepth : Value.storedDepth ≤ depth)
    {body time : Value} (hbody : IsDocument depth body) (htime : IsDocument depth time) (n now : Int) :
    ∀ f ∈ HistoryEntry.fields { bareEntry "https://x" n now with body, responseTime := time },
      IsDocument depth f.2 := by
  have hbare := storable_bareEntry (by decide : Json.IsClean "https://x") n now
  simp only [HistoryEntry.Storable, HistoryEntry.fields, bareEntry, List.forall_mem_cons] at hbare ⊢
  obtain ⟨hid, hmethod, hurl, htimestamp, hheaders, -, hstatus, hstatusText, -, hresponseBody,
    hresponseHeaders, htags, herror, -⟩ := hbare
  exact ⟨hid.mono hdepth, hmethod.mono hdepth, hurl.mono hdepth, htimestamp.mono hdepth,
    hheaders.mono hdepth, hbody, hstatus.mono hdepth, hstatusText.mono hdepth, htime,
    hresponseBody.mono hdepth, hresponseHeaders.mono hdepth, htags.mono hdepth, herror.mono hdepth,
    List.forall_mem_nil _⟩

theorem reachable_withField (field : Value × Value) : (withField field).Reachable :=
  .step (.new 50) _ _

/-- A response time that is no number is one after loading. -/
theorem load_save_nan :
    ∃ (saved : Files) (loaded : History),
      (withField (.str "response_time", .float (.nan (.given 0)))).save .empty (.ofText "h.json") =
        (saved, .ok ()) ∧
      load saved (.ofText "h.json") (.int 50) = .ok loaded ∧
      loaded.entries = [{ bareEntry "https://x" 1704067200000 1704067200000 with
        responseTime := .float (.nan .document) }] := by
  let h := withField (.str "response_time", .float (.nan (.given 0)))
  have hentries : h.entries = [{ bareEntry "https://x" 1704067200000 1704067200000 with
      responseTime := .float (.nan (.given 0)) }] := rfl
  have hstorable : ∀ e ∈ h.entries, e.unmarked.Storable := by
    rw [hentries, List.forall_mem_singleton]
    have hnumber : IsDocument Value.storedDepth (.float (.nan .document)) :=
      .float fun k h => by cases h
    exact isDocument_bareEntry_with (Nat.le_refl _) .null hnumber _ _
  obtain ⟨saved, loaded, text, hsave, -, hload, hloaded, -⟩ :=
    load_save (reachable_withField _) (h := h) rfl (by decide) hstorable reaches_empty
  exact ⟨saved, loaded, hsave, hload, hloaded.trans (congrArg _ hentries)⟩

/-- A body that nests deeper than is stored keeps the history from being saved, and leaves an empty
file. -/
theorem save_of_deep_body :
    ∃ failure, (withField (.str "body", nested 499)).Reachable ∧
      (withField (.str "body", nested 499)).limit = .int 50 ∧
      (∀ e ∈ (withField (.str "body", nested 499)).entries, ∀ f ∈ e.fields, IsDocument 500 f.2) ∧
      Files.empty.Reaches (.ofText "h.json") ["h.json"] ∧
      (withField (.str "body", nested 499)).save .empty (.ofText "h.json") =
        (Files.empty.put ["h.json"] (.file (.text "")), .error failure) := by
  let e : HistoryEntry :=
    { bareEntry "https://x" 1704067200000 1704067200000 with body := nested 499 }
  have hentries : (withField (.str "body", nested 499)).entries = [e] := rfl
  have hbody : (("body" : Text), nested 499) ∈ e.fields := by simp [HistoryEntry.fields, e]
  obtain ⟨failure, hfailure⟩ :=
    HistoryEntry.exists_toValue_error hbody (spread_nested (by decide))
  have hvalue : (withField (.str "body", nested 499)).toValue = .error failure := by
    rw [toValue, hentries, List.mapM_cons, hfailure]
    rfl
  refine ⟨failure, reachable_withField _, rfl, ?_, reaches_empty, ?_⟩
  · rw [hentries, List.forall_mem_singleton]
    exact isDocument_bareEntry_with (by decide) (isDocument_nested 499) .null _ _
  · rw [save, hvalue]
    exact reaches_empty.writeDocument_error failure _

end Saved

end History

end HttpWorkbench
