import HttpWorkbench.CommandLine.RequestInput
import HttpWorkbench.History.Document

/-!
# The history on the command line

The entries of a history file, latest first or those that a search finds, one row each.
-/

namespace HttpWorkbench.CommandLine

/-- The history file that the options or the settings name. -/
def historyFile (option : Option Text) (settings : Settings) : Value :=
  (Value.ofText? option).orElse settings.historyFile

/-- The history in the file that a value names, cut to the limit of the settings. -/
def historyIn (file : Value) (settings : Settings) (files : Files) : Result History := do
  let path ← Path.ofValue file
  History.load files path settings.historyLimit

/-- Save a history in the file that a value names. -/
def saveHistory (file : Value) (h : History) : Action Unit := do
  let path ← Action.ofResult (Path.ofValue file)
  Action.changeFiles fun files => h.save files path

/-- The status of an entry, or the failure in its place. -/
def statusText (e : HistoryEntry) : Text :=
  match e.status with
  | .null => "[red]" ++ (e.error.orElse (.str "-")).text ++ "[/red]"
  | status => status.text

/-- The time of an entry's exchange. -/
def timeText (e : HistoryEntry) : Result Text :=
  match e.responseTime with
  | .null => .ok "-"
  | time => do
    let milliseconds ← wholeNumber time
    .ok (milliseconds ++ " ms")

/-- The row of an entry. -/
def historyRow (e : HistoryEntry) : Result (List Text) := do
  let status := statusText e
  let time ← timeText e
  let «when» ← dateAndTime e.timestamp
  let tags ← e.tags.joined ", "
  let method ← cellOfValue e.method
  let url ← cellOfValue e.url
  .ok [«when», method, url, status, time, tags]

/-- The entries to show. -/
def chosenEntries (search : Option Text) (h : History) : Result (List HistoryEntry) :=
  match given? search with
  | some query => h.search (.str query)
  | none => h.sorted

/-- Show, search or clear the history. -/
def runHistory (settings : Settings) (o : HistoryOptions) : Action Nat := do
  let file := historyFile o.historyFile settings
  if !file.isTrue then
    Action.warn "❌ [red]No history file configured (use --history-file)[/red]"
    pure 1
  else
    let s ← get
    let h ← Action.ofResult (historyIn file settings s.files)
    if o.clear then
      saveHistory file h.clear
      Action.say "✅ [green]History cleared[/green]"
      pure 0
    else
      let entries ← Action.ofResult (chosenEntries o.search h)
      if entries.isEmpty then
        Action.say "[yellow]No history entries.[/yellow]"
        pure 0
      else
        let rows ← Action.ofResult (entries.mapM historyRow)
        Action.show .out (.table (some "🕘 Request History")
          (some ["When", "Method", "URL", "Status", "Time", "Tags"]) rows)
        pure 0

end HttpWorkbench.CommandLine
