import HttpWorkbench.Proofs.History.Stored
import HttpWorkbench.Proofs.Storage.Offered

/-!
# Offered histories

What a history file is to hold so that its entries can be shown and saved again. An item that has not
the fields of an entry is refused; of one that has them, nothing checks the values.
-/

namespace HttpWorkbench

/-- A number that can be rounded to a whole one. -/
def Value.IsNumber (v : Value) : Prop :=
  (∃ x, v = .float x) ∨ ∃ n x, v.asInt? = some n ∧ Binary64.ofInt? n = some x

/-- An entry that can be shown and saved. -/
structure HistoryEntry.Fits (e : HistoryEntry) : Prop where
  storable : e.Storable
  method : ∃ s : Text, e.method = .str s
  url : ∃ s : Text, e.url = .str s
  timestamp : ∃ s : Text, e.timestamp = .str s
  time : e.responseTime = .null ∨ e.responseTime.IsNumber
  tags : ∃ tags : List Text, e.tags = .list (tags.map .str)

/-- An item that has not the fields of an entry is seen as such. -/
theorem HistoryEntry.failsOnly_ofValue (item : Value) :
    FailsOnly (fun failure => ∃ cause, failure = .misuse cause ∧
      (cause.category = .wrongKind ∨ cause.category = .missingAttribute)) (ofValue item) := by
  refine FailsOnly.bind ?_ fun entries =>
    FailsOnly.bind ((RecordShape.failsOnly_arguments _ _).imp ?_) fun args => .ok _
  · cases item with
    | map entries => exact .ok entries
    | _ => exact .error ⟨_, rfl, .inr rfl⟩
  · rintro _ ⟨cause, rfl, hkind⟩
    exact ⟨cause, rfl, .inl hkind⟩

namespace History

/-- What the document of a history is to be: the entries in it can be shown and saved. Anything but a
list, and items that are no entries, are refused anyway. -/
def FitsDocument (data : Value) : Prop :=
  ∀ items, data = .list items → ∀ item ∈ items, ∀ e, HistoryEntry.ofValue item = .ok e → e.Fits

/-- A failure that tells what is wrong with a history file. -/
def IsRefusal (failure : Failure) : Prop := ∃ reason, failure = .history reason

/-- A history with a limit, of entries that can be shown and saved. -/
structure IsUsable (h : History) : Prop where
  limit : ∃ n : Int, h.limit = .int n
  entries : ∀ e ∈ h.entries, e.Fits

theorem yields_entryOfDocument (path : Path) {item : Value}
    (h : ∀ e, HistoryEntry.ofValue item = .ok e → e.Fits) :
    Yields HistoryEntry.Fits IsRefusal (entryOfDocument path item) := by
  unfold entryOfDocument
  have hfails := HistoryEntry.failsOnly_ofValue item
  cases hitem : HistoryEntry.ofValue item with
  | ok e => exact h e hitem
  | error failure =>
    obtain ⟨cause, rfl, hkind | hkind⟩ := hfails failure hitem
    · simp only [hkind]
      exact ⟨_, rfl⟩
    · simp only [hkind]
      exact ⟨_, rfl⟩

/-- Loading a history from a file that offers one gives entries that can be shown and saved, or tells
what is wrong with the file. Where there is no file, the history is empty. -/
theorem yields_load {files : Files} {path : Path} (h : files.Offers FitsDocument path) (limit : Int) :
    Yields IsUsable IsRefusal (load files path (.int limit)) := by
  obtain ⟨there, hthere, hgiven⟩ := h.exists_pathExists
  rw [load, hthere, ok_bind]
  cases there with
  | false => exact ⟨⟨limit, rfl⟩, List.forall_mem_nil _⟩
  | true =>
    refine Yields.bind ((h.yields_readDocument (hgiven rfl) _).imp (fun _ h => h) ?_)
      fun data hdata => ?_
    · rintro _ (⟨fault, rfl⟩ | ⟨fault, rfl⟩)
      · exact ⟨_, rfl⟩
      · exact ⟨_, rfl⟩
    · cases data with
      | list items =>
        refine Yields.bind (.mapM fun item hitem =>
          yields_entryOfDocument path (hdata items rfl item hitem)) fun entries hentries => ?_
        rw [trim_int { new (.int limit) with entries } rfl]
        exact ⟨⟨limit, rfl⟩, fun e he => hentries e (List.mem_of_mem_take he)⟩
      | _ => exact ⟨_, rfl⟩

/-- Saving entries that can be saved is done, or refused where the path leads to no file. -/
theorem yields_save {h : History} (hentries : ∀ e ∈ h.entries, e.Storable) {path : Path}
    (hgiven : Files.pathFault? path = none) (files : Files) :
    Yields (fun _ => True) IsRefusal (h.save files path).2 := by
  obtain ⟨text, hwrite, -, -⟩ := (isDocument_entries hentries).exists_write storedDepth_le
  have hdocument : Files.documentText (.ok (.list (h.entries.map HistoryEntry.document))) =
      (text, none) := by
    rw [Files.documentText, hwrite]
    rfl
  have hwritten := Files.yields_writeText hgiven files text
  rw [save, toValue_eq hentries, Files.writeDocument, hdocument]
  dsimp only
  cases htext : files.writeText path text with
  | ok written => trivial
  | error fault =>
    rw [htext] at hwritten
    obtain ⟨f, rfl⟩ := hwritten
    exact ⟨_, rfl⟩

/-- A choice that can be made for each element gives some of them. -/
theorem exists_selectM {α : Type} {test : α → Result Bool} {xs : List α}
    (h : ∀ x ∈ xs, ∃ keep, test x = .ok keep) :
    ∃ ys, selectM test xs = .ok ys ∧ ∀ y ∈ ys, y ∈ xs := by
  induction xs with
  | nil => exact ⟨[], rfl, nofun⟩
  | cons x xs ih =>
    rw [List.forall_mem_cons] at h
    obtain ⟨⟨keep, hkeep⟩, hrest⟩ := h
    obtain ⟨ys, hys, hsub⟩ := ih hrest
    rw [selectM, hkeep, hys]
    cases keep with
    | false => exact ⟨ys, rfl, fun y hy => List.mem_cons_of_mem x (hsub y hy)⟩
    | true => exact ⟨x :: ys, rfl, List.cons_subset_cons x hsub⟩

/-- Entries with texts for timestamps are sorted. -/
theorem exists_sorted {h : History} (hentries : ∀ e ∈ h.entries, e.Fits) :
    ∃ entries, h.sorted = .ok entries ∧ ∀ e ∈ entries, e.Fits := by
  have htexts : (h.entries.all fun e => e.timestamp.isText) = true := by
    rw [List.all_eq_true]
    intro e he
    obtain ⟨s, hs⟩ := (hentries e he).timestamp
    rw [hs]
    rfl
  rw [sorted, Value.sortByDescending, if_pos htexts]
  exact ⟨_, rfl, fun e he => hentries e (List.mem_mergeSort.mp he)⟩

/-- A text is searched for in entries with texts for urls and methods. -/
theorem exists_search {h : History} (hentries : ∀ e ∈ h.entries, e.Fits) (query : Text) :
    ∃ entries, h.search (.str query) = .ok entries ∧ ∀ e ∈ entries, e.Fits := by
  have hmatches (needle : Text) (e : HistoryEntry) (he : e ∈ h.entries) :
      ∃ found, matchesNeedle (.str needle) e = .ok found := by
    obtain ⟨url, hurl⟩ := (hentries e he).url
    obtain ⟨method, hmethod⟩ := (hentries e he).method
    rw [matchesNeedle, hurl, hmethod]
    change ∃ found, (if Text.occurs needle (Text.lower url) then .ok true
      else .ok (Text.occurs needle (Text.lower method)) : Result Bool) = .ok found
    split <;> exact ⟨_, rfl⟩
  change ∃ entries, (if !(Value.str (Text.trim query)).isTrue then .ok h.entries
    else selectM (matchesNeedle (.str (Text.lower query))) h.entries) = .ok entries ∧ _
  split
  · exact ⟨_, rfl, hentries⟩
  · obtain ⟨entries, hselected, hsub⟩ := exists_selectM (hmatches (Text.lower query))
    exact ⟨entries, hselected, fun e he => hentries e (hsub e he)⟩

end History

end HttpWorkbench
