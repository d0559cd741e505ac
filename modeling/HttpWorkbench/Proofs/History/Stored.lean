import HttpWorkbench.History.Document
import HttpWorkbench.Proofs.History.Operations
import HttpWorkbench.Proofs.Storage.Files
import HttpWorkbench.Proofs.Value.Spread

/-!
# Histories in files

A history whose fields are values of documents is saved as a list of its entries, newest first, and
what is loaded from there are the same entries, cut to the limit.
-/

namespace HttpWorkbench

open Json (IsDocument)

/-! ## Entries -/

namespace HistoryEntry

/-- An entry whose fields are values of documents that do not nest too deep to be stored. -/
def Storable (e : HistoryEntry) : Prop := ∀ f ∈ e.fields, IsDocument Value.storedDepth f.2

/-- The document of an entry. -/
def document (e : HistoryEntry) : Value := .ofFields e.fields

theorem Storable.toValue_eq {e : HistoryEntry} (h : e.Storable) : e.toValue = .ok e.document := by
  rw [toValue, storedFields_eq h]
  rfl

/-- An entry with a field that cannot be stored cannot be stored. -/
theorem exists_toValue_error {e : HistoryEntry} {f : Text × Value} (hf : f ∈ e.fields)
    {failure : Failure} (hspread : f.2.spread Value.storedDepth = .error failure) :
    ∃ failure', e.toValue = .error failure' := by
  obtain ⟨failure', hfields⟩ := exists_storedFields_error hf hspread
  refine ⟨failure', ?_⟩
  rw [toValue, hfields]
  rfl

/-- An entry is read from its document. -/
theorem ofValue_document (e : HistoryEntry) : ofValue e.document = .ok e := rfl

theorem map_fst_fields (e : HistoryEntry) : e.fields.map Prod.fst = shape.fields := rfl

/-- The document of an entry nests once more than its fields. -/
theorem isDocument_document {e : HistoryEntry} {depth : Nat}
    (h : ∀ f ∈ e.fields, IsDocument depth f.2) : IsDocument (depth + 1) e.document := by
  have hnodup : shape.fields.Nodup := by decide
  have hnames : ∀ name ∈ shape.fields, ∀ c ∈ name, c.isHalf = false := by decide
  refine .map (e.map_fst_fields ▸ hnodup) (fun f hf => hnames f.1 ?_) h
  rw [← e.map_fst_fields]
  exact List.mem_map_of_mem hf

end HistoryEntry

namespace History

open Files (Reaches)

variable {files : Files} {path : Path} {key : FileKey}

/-- The entries that the file at a path holds: none as long as there is no file, and else those of
the list in it. -/
structure IsIn (entries : List HistoryEntry) (files : Files) (path : Path) (key : FileKey) :
    Prop where
  reaches : files.Reaches path key
  held : files.locate path = .ok (.vacant key) ∧ entries = [] ∨
    ∃ content items, files.locate path = .ok (.file key content) ∧
      files.readDocument path (documentFailures path) = .ok (.list items) ∧
      items.mapM HistoryEntry.ofValue = .ok entries

/-- What a file holds depends on where the path leads only. -/
theorem IsIn.congr {files' : Files} {entries : List HistoryEntry} (h : IsIn entries files path key)
    (hlocate : files'.locate path = files.locate path) : IsIn entries files' path key where
  reaches := ⟨h.reaches.given, hlocate ▸ h.reaches.leads⟩
  held := by
    rw [hlocate, Files.readDocument_congr hlocate]
    exact h.held

theorem mapM_entryOfDocument {items : List Value} {entries : List HistoryEntry}
    (h : items.mapM HistoryEntry.ofValue = .ok entries) :
    items.mapM (entryOfDocument path) = .ok entries := by
  refine mapM_eq_ok_of_imp (fun item e he => ?_) h
  rw [entryOfDocument, he]

/-- Loading a list of entries gives the newest of them, cut to the limit, and no number of an
identifier. -/
theorem load_of_readDocument {items : List Value} {entries : List HistoryEntry}
    (hread : files.readDocument path (documentFailures path) = .ok (.list items))
    (hitems : items.mapM HistoryEntry.ofValue = .ok entries) (limit : Int) :
    History.load files path (.int limit) =
      .ok ⟨entries.take (keptCount limit entries.length), .int limit, 0⟩ := by
  have htrim := trim_int { new (.int limit) with entries } (show _ = Value.int limit from rfl)
  rw [History.load, Files.pathExists_of_readDocument hread]
  simp only [ok_bind, if_true, hread, mapM_entryOfDocument hitems]
  rw [htrim]
  rfl

/-- Loading gives the newest of the entries that the file holds, cut to the limit. -/
theorem IsIn.load_int {entries : List HistoryEntry} (h : IsIn entries files path key) (limit : Int) :
    History.load files path (.int limit) =
      .ok ⟨entries.take (keptCount limit entries.length), .int limit, 0⟩ := by
  rcases h.held with ⟨hlocate, rfl⟩ | ⟨content, items, hlocate, hread, hitems⟩
  · have hthere : files.pathExists path = .ok false := by
      simp [Files.pathExists, h.reaches.given, hlocate]
    rw [History.load, hthere, ok_bind, List.take_nil]
    rfl
  · exact load_of_readDocument hread hitems limit

/-- A limit that is not negative is the number of the newest entries that are loaded. -/
theorem IsIn.load {entries : List HistoryEntry} (h : IsIn entries files path key) (limit : Nat) :
    History.load files path (.int limit) = .ok ⟨entries.take limit, .int limit, 0⟩ := by
  rw [h.load_int, keptCount, if_neg (by omega)]
  rfl

theorem toValue_eq {h : History} (hentries : ∀ e ∈ h.entries, e.Storable) :
    h.toValue = .ok (.list (h.entries.map HistoryEntry.document)) := by
  rw [toValue, mapM_eq_ok fun e he => (hentries e he).toValue_eq]
  rfl

/-- The list of the documents of entries that can be stored is a document. -/
theorem isDocument_entries {entries : List HistoryEntry} (hentries : ∀ e ∈ entries, e.Storable) :
    IsDocument (Value.storedDepth + 2) (.list (entries.map HistoryEntry.document)) := by
  refine .list fun v hv => ?_
  obtain ⟨e, he, rfl⟩ := List.mem_map.mp hv
  exact HistoryEntry.isDocument_document (hentries e he)

theorem storedDepth_le : Value.storedDepth + 2 ≤ Json.depthLimit := by decide

/-- Saving entries that can be stored puts the list of their documents into the file. -/
theorem save_eq {h : History} (hreaches : files.Reaches path key)
    (hentries : ∀ e ∈ h.entries, e.Storable) :
    h.save files path =
      (files.put key (.file (.text
        (Json.write .file (.list (h.entries.map HistoryEntry.document))).text)), .ok ()) := by
  rw [save, toValue_eq hentries, hreaches.writeDocument_eq (isDocument_entries hentries) storedDepth_le]

/-- The file at a path holds the list of the documents of entries that are saved there. -/
theorem save_isIn {h : History} (hreaches : files.Reaches path key)
    (hentries : ∀ e ∈ h.entries, e.Storable) :
    (h.save files path).1.readDocument path (documentFailures path) =
      .ok (.list (h.entries.map HistoryEntry.document)) ∧
    IsIn h.entries (h.save files path).1 path key := by
  have hlocate := hreaches.locate_put
    (.text (Json.write .file (.list (h.entries.map HistoryEntry.document))).text)
  have hread := Files.readDocument_of_written hreaches.given hlocate (isDocument_entries hentries)
    storedDepth_le (documentFailures path)
  have hitems := mapM_map_eq_ok HistoryEntry.ofValue_document h.entries
  rw [save_eq hreaches hentries]
  exact ⟨hread, ⟨hreaches.given, .inr ⟨_, hlocate⟩⟩, .inr ⟨_, _, hlocate, hread, hitems⟩⟩

/-- A history is saved nowhere where the path does not lead. -/
theorem save_of_locate_error {reason : FileReason} (hlocate : files.locate path = .error reason)
    (h : History) : (h.save files path).1 = files :=
  Files.writeDocument_of_locate_error hlocate _ _

/-- One entry that cannot be stored leaves an empty file in place of the history. -/
theorem save_of_toValue_error {h : History} (hreaches : files.Reaches path key) {e : HistoryEntry}
    (he : e ∈ h.entries) {failure : Failure} (hfailure : e.toValue = .error failure) :
    (h.save files path).1 = files.put key (.file (.text "")) := by
  obtain ⟨failure', hvalue⟩ := exists_error_of_mem he hfailure
  rw [save, toValue, hvalue]
  exact congrArg Prod.fst (hreaches.writeDocument_error failure' _)

end History

end HttpWorkbench
