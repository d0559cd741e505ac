import HttpWorkbench.Environment.Store
import HttpWorkbench.Storage.Files

/-!
# Environment files

A store in a file is an object with the tables under `environments` and the selected name under
`active`. A file that does not exist gives an empty store.
-/

namespace HttpWorkbench.EnvironmentStore

/-- How failures with environment files are told. -/
def documentFailures (path : Path) : Files.DocumentFailures where
  malformed fault := .environment (.malformed path.text fault)
  unreadable fault := .environment (.unreadable path.text fault)
  unwritable fault := .environment (.unwritable path.text fault)

/-- The store that a document describes; `path` names it in failures. -/
def ofDocument (data : Value) (path : Path) : Result EnvironmentStore := do
  let entries ←
    match data with
    | .map es => .ok es
    | _ => .error (.environment (.notObject path.text))
  let store ← make (Value.fieldOr "environments" entries .null) .null
  let active := Value.fieldOr "active" entries .null
  if active.isTrue then store.activate active else .ok store

/-- The store in a file. -/
def load (files : Files) (path : Path) : Result EnvironmentStore := do
  let there ← files.pathExists path
  if there then
    let data ← files.readDocument path (documentFailures path)
    ofDocument data path
  else .ok empty

/-- Save the store in a file. -/
def save (files : Files) (path : Path) (store : EnvironmentStore) : Files × Result Unit :=
  files.writeDocument path (.ok store.toValue) (documentFailures path)

end HttpWorkbench.EnvironmentStore
