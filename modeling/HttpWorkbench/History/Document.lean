import HttpWorkbench.History.Store
import HttpWorkbench.Storage.Files

/-!
# History files

A history in a file is a list of entries, newest first. A file that does not exist gives an empty
history. Loading starts the numbering of identifiers anew.
-/

namespace HttpWorkbench.History

/-- How failures with history files are told. -/
def documentFailures (path : Path) : Files.DocumentFailures where
  malformed fault := .history (.malformed path.text fault)
  unreadable fault := .history (.unreadable path.text fault)
  unwritable fault := .history (.unwritable path.text fault)

/-- An item of a history file as an entry. -/
def entryOfDocument (path : Path) (item : Value) : Result HistoryEntry :=
  match HistoryEntry.ofValue item with
  | .error (.misuse cause) =>
    match cause.category with
    | .wrongKind | .missingAttribute => .error (.history (.invalidEntry path.text cause))
    | _ => misused cause
  | result => result

/-- The history in a file, cut to a limit. -/
def load (files : Files) (path : Path) (limit : Value) : Result History := do
  let there ← files.pathExists path
  if there then
    let data ← files.readDocument path (documentFailures path)
    match data with
    | .list items =>
      let entries ← items.mapM (entryOfDocument path)
      let (h, trimmed) := { History.new limit with entries }.trim
      let _ ← trimmed
      .ok h
    | _ => .error (.history (.notArray path.text))
  else .ok (new limit)

/-- Save the history in a file. -/
def save (files : Files) (path : Path) (h : History) : Files × Result Unit :=
  files.writeDocument path h.toValue (documentFailures path)

end HttpWorkbench.History
