import HttpWorkbench.Proofs.Failing
import HttpWorkbench.Storage.Files

/-!
# Documents that are offered

A file offers a document of a kind if its text is malformed or a document of that kind. What is read
of such a file fits, and what cannot be read is told in the way of the kind of document.
-/

namespace HttpWorkbench

/-- The text is malformed, or it is a document with the property. A document that nests deeper than
reading goes, or that has an integer with too many digits, is neither. -/
def Json.Offers (fits : Value → Prop) (text : Text) : Prop :=
  Yields fits (fun fault => ∃ f, fault = .malformed f) (Json.read text)

namespace Files

/-- The path can be followed, and if it leads to a file, the file has a text that is malformed or a
document with the property. -/
structure Offers (files : Files) (fits : Value → Prop) (path : Path) : Prop where
  short : files.locate path ≠ .error .nameTooLong
  text : ∀ content, files.openFile path = .ok content →
    ∃ text, content.lines = .ok text ∧ Json.Offers fits text

variable {files : Files} {fits : Value → Prop} {path : Path}

/-- Whether there is something at the path can be asked, and where there is the system can be given
the path. -/
theorem Offers.exists_pathExists (h : files.Offers fits path) :
    ∃ there, files.pathExists path = .ok there ∧ (there = true → pathFault? path = none) := by
  unfold pathExists
  split
  · exact ⟨false, rfl, nofun⟩
  · rename_i hfault
    have hnone : pathFault? path = none := Option.not_isSome_iff_eq_none.mp hfault
    split
    · exact ⟨false, rfl, nofun⟩
    · exact ⟨true, rfl, fun _ => hnone⟩
    · rename_i hlong
      exact absurd hlong h.short
    · exact ⟨false, rfl, nofun⟩

/-- What is read fits, or cannot be read in one of the ways that the kind of document tells. -/
theorem Offers.yields_readDocument (h : files.Offers fits path) (hgiven : pathFault? path = none)
    (failures : DocumentFailures) :
    Yields fits (fun failure => (∃ fault, failure = failures.malformed fault) ∨
      ∃ fault, failure = failures.unreadable fault) (files.readDocument path failures) := by
  unfold readDocument
  cases hopen : files.openFile path with
  | error fault =>
    have hfile : ∃ reason, fault = .file reason := by
      cases hlocate : files.locate path with
      | error reason =>
        rw [openFile, hgiven, hlocate] at hopen
        exact ⟨_, (Except.error.inj hopen).symm⟩
      | ok location =>
        rw [openFile, hgiven, hlocate] at hopen
        cases location with
        | file key content => cases hopen
        | _ => exact ⟨_, (Except.error.inj hopen).symm⟩
    obtain ⟨reason, rfl⟩ := hfile
    exact .inr ⟨reason, rfl⟩
  | ok content =>
    obtain ⟨text, htext, hoffers⟩ := h.text content hopen
    simp only [Except.mapError, ok_bind, htext]
    unfold Json.Offers at hoffers
    cases hread : Json.read text with
    | ok v =>
      rw [hread] at hoffers
      exact hoffers
    | error fault =>
      rw [hread] at hoffers
      obtain ⟨f, rfl⟩ := hoffers
      exact .inl ⟨f, rfl⟩

/-- Where the system can be given the path, a text is written, or the path leads to no file. -/
theorem yields_writeText (hgiven : pathFault? path = none) (files : Files) (text : Text) :
    Yields (fun _ => True) (fun fault => ∃ f, fault = .file f) (files.writeText path text) := by
  rw [writeText.eq_def, hgiven]
  cases files.locate path with
  | error reason => exact ⟨_, rfl⟩
  | ok location =>
    cases location with
    | directory => exact ⟨_, rfl⟩
    | _ => trivial

end Files

end HttpWorkbench
