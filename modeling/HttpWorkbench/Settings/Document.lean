import HttpWorkbench.Settings.Basic
import HttpWorkbench.Storage.Files

/-!
# Settings files

A settings file is a JSON object with the settings by name; what it does not name keeps its
default. Saving writes the custom table beside the settings, at the top of the object.
-/

namespace HttpWorkbench.Settings

/-- How failures with settings files are told. -/
def documentFailures (path : Path) : Files.DocumentFailures where
  malformed fault := .settings (.malformed path.text fault)
  unreadable fault := .settings (.unreadable path.text fault)
  unwritable fault := .settings (.unwritable path.text fault)

/-- The layer in a file. -/
def readLayer (files : Files) (path : Path) : Result (List (Value × Value)) := do
  let there ← files.pathExists path
  if !there then .error (.settings (.notFound path.text))
  if Text.lower path.suffix ≠ ".json" then .error (.settings (.notJsonFile path.text))
  let data ← files.readDocument path (documentFailures path)
  match data with
  | .map entries => .ok entries
  | _ => .error (.settings (.notObject path.text))

/-- The settings from the defaults, a file and overrides. An empty path or table is no layer. -/
def load (files : Files) (overrides file : Value) : Result Settings := do
  let base : List (Value × Value) := default.ownEntries ++ [(.str "custom", .map [])]
  let base ←
    if file.isTrue then do
      let path ← Path.ofValue file
      let layer ← readLayer files path
      .ok (Assoc.putAll base layer)
    else .ok base
  let base ←
    if overrides.isTrue then do
      let layer ← overrides.toDictionary
      .ok (Assoc.putAll base layer)
    else .ok base
  ofLayers base

/-- The document of the settings. A custom key replaces a setting of that name. -/
def toDocument (s : Settings) : Result Value := do
  let own ← Value.storedFields s.ownFields
  let custom ← s.custom.spread Value.storedDepth
  let table ← custom.toDictionary
  .ok (.map (Assoc.putAll own table))

/-- Save the settings in a file. -/
def save (files : Files) (path : Path) (s : Settings) : Files × Result Unit :=
  match s.toDocument with
  | .error failure => (files, .error failure)
  | .ok document => files.writeDocument path (.ok document) (documentFailures path)

end HttpWorkbench.Settings
