import HttpWorkbench.Proofs.Json.Data
import HttpWorkbench.Proofs.Json.RoundTrip
import HttpWorkbench.Storage.Files

/-!
# What is written is at its place

A path leads to the same place after something was put into the file there, and the document that is
read there is the one that was written.
-/

namespace HttpWorkbench.Files

variable {files : Files} {key : FileKey} {content : Content} {path : Path}

theorem node?_put_self {node : Node} (h : isOutside key = false) :
    (files.put key node).node? key = some node := by
  rw [node?, h]
  exact Assoc.get?_put_self key node files.nodes

theorem node?_put_of_ne {node : Node} {other : FileKey} (h : key ≠ other) :
    (files.put key node).node? other = files.node? other := by
  rw [node?, node?, put, Assoc.get?_put_of_ne h]

/-- There is no directory at the key: a file, or nothing yet. -/
def IsFree (files : Files) (key : FileKey) : Prop :=
  files.node? key = none ∨ ∃ content, files.node? key = some (.file content)

theorem IsFree.isOutside_eq_false (h : files.IsFree key) : isOutside key = false := by
  by_contra hout
  rw [IsFree, node?, if_pos (by simpa using hout)] at h
  rcases h with h | ⟨content, h⟩ <;> cases h

/-- A place where a file is or can be made, at the end of the parts of a path. -/
def LeadsTo (files : Files) (base : FileKey) (parts : List Text) (key : FileKey) : Prop :=
  files.follow base parts = .ok (.vacant key) ∨
    ∃ content, files.follow base parts = .ok (.file key content)

/-- No directory is where parts lead, and putting a file there does not change where they lead, since
the directories on the way are elsewhere. -/
theorem LeadsTo.follow_put {base : FileKey} {parts : List Text} (h : files.LeadsTo base parts key)
    (content : Content) : files.IsFree key ∧
      (files.put key (.file content)).follow base parts = .ok (.file key content) := by
  induction parts generalizing base with
  | nil => rcases h with h | ⟨_, h⟩ <;> cases h
  | cons p rest ih =>
    rw [LeadsTo, follow] at h
    rw [follow]
    split_ifs at h ⊢ with hup hlong
    · exact ih h
    · rcases h with h | ⟨_, h⟩ <;> cases h
    · cases hnode : files.node? (base ++ [p]) with
      | none =>
        simp only [hnode] at h
        cases rest with
        | nil =>
          obtain rfl : base ++ [p] = key := by rcases h with h | ⟨_, h⟩ <;> cases h; rfl
          have hfree : files.IsFree (base ++ [p]) := .inl hnode
          exact ⟨hfree, by simp only [node?_put_self hfree.isOutside_eq_false]⟩
        | cons _ _ => rcases h with h | ⟨_, h⟩ <;> cases h
      | some node =>
        simp only [hnode] at h
        cases node with
        | file old =>
          cases rest with
          | nil =>
            obtain rfl : base ++ [p] = key := by rcases h with h | ⟨_, h⟩ <;> cases h; rfl
            have hfree : files.IsFree (base ++ [p]) := .inr ⟨old, hnode⟩
            exact ⟨hfree, by simp only [node?_put_self hfree.isOutside_eq_false]⟩
          | cons _ _ => rcases h with h | ⟨_, h⟩ <;> cases h
        | directory =>
          obtain ⟨hfree, hfollow⟩ := ih h
          -- This directory is not at the key, where there is none, so it is still there.
          have hne : key ≠ base ++ [p] := by
            rintro rfl
            rcases hfree with h | ⟨_, h⟩ <;> rw [hnode] at h <;> cases h
          exact ⟨hfree, by simp only [node?_put_of_ne hne, hnode, hfollow]⟩

/-- A file can be read and written at the path: the system can be given it, and it leads to a file or
to where one can be made. -/
structure Reaches (files : Files) (path : Path) (key : FileKey) : Prop where
  given : pathFault? path = none
  leads : files.locate path = .ok (.vacant key) ∨
    ∃ content, files.locate path = .ok (.file key content)

theorem Reaches.locate_put (h : files.Reaches path key) (content : Content) :
    (files.put key (.file content)).locate path = .ok (.file key content) := by
  have hleads := h.leads
  rw [locate] at hleads ⊢
  split_ifs at hleads ⊢ with hlong
  · rcases hleads with h | ⟨_, h⟩ <;> cases h
  · exact (LeadsTo.follow_put hleads content).2

/-- A path leads to what was written there. -/
theorem Reaches.put (h : files.Reaches path key) (content : Content) :
    (files.put key (.file content)).Reaches path key :=
  ⟨h.given, .inr ⟨content, h.locate_put content⟩⟩

theorem Reaches.writeText (h : files.Reaches path key) (s : Text) :
    files.writeText path s = .ok (files.put key (.file (.text s))) := by
  rw [Files.writeText, h.given]
  rcases h.leads with hleads | ⟨_, hleads⟩ <;> rw [hleads]

/-- Where a path leads to a file, there is something. -/
theorem pathExists_of_file (hgiven : pathFault? path = none)
    (hlocate : files.locate path = .ok (.file key content)) : files.pathExists path = .ok true := by
  simp [pathExists, hgiven, hlocate]

/-- The file that a path leads to is opened. -/
theorem openFile_of_file (hgiven : pathFault? path = none)
    (hlocate : files.locate path = .ok (.file key content)) : files.openFile path = .ok content := by
  rw [openFile, hgiven, hlocate]

/-- What is opened is a file that the path leads to. -/
theorem exists_locate_of_openFile (h : files.openFile path = .ok content) :
    pathFault? path = none ∧ ∃ key, files.locate path = .ok (.file key content) := by
  rw [openFile] at h
  split at h
  · cases h
  · rename_i key content' hgiven hlocate
    obtain rfl := Except.ok.inj h
    exact ⟨hgiven, key, hlocate⟩
  all_goals cases h

/-- A document that is read from a file is what a text is read as. -/
theorem isData_readDocument {failures : DocumentFailures} {v : Value}
    (h : files.readDocument path failures = .ok v) : Json.IsData v := by
  obtain ⟨content, -, h⟩ := bind_eq_ok_iff.mp h
  obtain ⟨text, -, h⟩ := bind_eq_ok_iff.mp h
  cases hread : Json.read text with
  | ok v' =>
    rw [hread] at h
    obtain rfl : v' = v := Except.ok.inj h
    exact Json.isData_read hread
  | error fault =>
    rw [hread] at h
    cases h

/-- Where a document is read, there is something. -/
theorem pathExists_of_readDocument {failures : DocumentFailures} {v : Value}
    (h : files.readDocument path failures = .ok v) : files.pathExists path = .ok true := by
  obtain ⟨content, hopen, -⟩ := bind_eq_ok_iff.mp h
  cases hfile : files.openFile path with
  | error fault =>
    rw [hfile] at hopen
    cases hopen
  | ok content =>
    obtain ⟨hgiven, key, hlocate⟩ := exists_locate_of_openFile hfile
    exact pathExists_of_file hgiven hlocate

/-- The document whose text is in a file is read there. -/
theorem readDocument_of_written (hgiven : pathFault? path = none) {v : Value}
    (hlocate : files.locate path = .ok (.file key (.text (Json.write .file v).text))) {depth : Nat}
    (hv : Json.IsDocument depth v) (hdepth : depth ≤ Json.depthLimit) (failures : DocumentFailures) :
    files.readDocument path failures = .ok v := by
  obtain ⟨text, hwrite, hlines, hread⟩ := hv.exists_write hdepth
  have hopen : files.openFile path = .ok (.text text) := by
    rw [openFile_of_file hgiven hlocate, hwrite]
  have hdecoded : (Content.text text).lines = .ok text := congrArg Except.ok hlines
  simp only [readDocument, hopen, Except.mapError, ok_bind, hdecoded, hread]

/-- A document is written as its text. -/
theorem Reaches.writeDocument_eq (h : files.Reaches path key) {v : Value} {depth : Nat}
    (hv : Json.IsDocument depth v) (hdepth : depth ≤ Json.depthLimit) (failures : DocumentFailures) :
    files.writeDocument path (.ok v) failures =
      (files.put key (.file (.text (Json.write .file v).text)), .ok ()) := by
  obtain ⟨text, hwrite, -, -⟩ := hv.exists_write hdepth
  simp only [writeDocument, documentText, h.writeText, hwrite]
  rfl

/-- A document that cannot be made leaves an empty file. -/
theorem Reaches.writeDocument_error (h : files.Reaches path key) (failure : Failure)
    (failures : DocumentFailures) :
    files.writeDocument path (.error failure) failures =
      (files.put key (.file (.text "")), .error failure) := by
  simp only [writeDocument, documentText, h.writeText]

/-- Nothing is written where a path does not lead. -/
theorem writeDocument_of_locate_error {reason : FileReason}
    (hlocate : files.locate path = .error reason) (document : Result Value) (failures : DocumentFailures) :
    (files.writeDocument path document failures).1 = files := by
  simp only [writeDocument, writeText, hlocate]
  cases pathFault? path <;> rfl

/-- What is read at a path depends on where it leads only. -/
theorem readDocument_congr {files' : Files} (h : files.locate path = files'.locate path)
    (failures : DocumentFailures) :
    files.readDocument path failures = files'.readDocument path failures := by
  rw [readDocument, readDocument, openFile, openFile, h]

end HttpWorkbench.Files
