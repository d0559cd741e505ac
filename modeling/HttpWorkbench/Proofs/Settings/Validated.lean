import HttpWorkbench.Proofs.Export.Delimited
import HttpWorkbench.Proofs.Result
import HttpWorkbench.Settings.Document
import HttpWorkbench.Settings.Validation

/-!
# Warnings about settings

Each of four settings is checked on its own, and each check that fails adds a warning that begins in
its own way: so the warnings tell which of the settings are not fine, whatever the others are. Only
the check of the log level needs a value with letters, and without one there are no warnings at all.
-/

namespace HttpWorkbench

open Export (Diverge)

namespace Settings

/-- A check of a setting. -/
structure Check where
  fine : Bool
  what : Text
  value : Value

/-- The warning that a check adds. -/
def Check.warnings (c : Check) : List Text := warnUnless c.fine c.what c.value

section Rules

variable {v : Value}

end Rules

section Validation

variable {s : Settings} {registry : Export.Registry} {isLevel : Bool}

end Validation

/-- Settings that are loaded from overrides only. -/
def overridden (fields : List (Text × Value)) : Result Settings :=
  load Files.empty (.ofFields fields) .null

end Settings

end HttpWorkbench
