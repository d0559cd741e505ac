import HttpWorkbench.Request.Saved
import HttpWorkbench.Storage.Files

/-!
# Request documents

Requests in files and streams. A document is checked before it becomes a request: it must be an
object with a url, its headers an object or a list of objects with `key` and `value`. A body
that is no text is kept as the text of its document.
-/

namespace HttpWorkbench.SavedRequest

/-- The header table that a list of entries stands for. -/
def headersOfList (source : Text) (entries : List Value) : Result (List (Value × Value)) := do
  let tables ← entries.mapM fun entry =>
    match entry with
    | .map es => .ok es
    | _ => .error (.request (.headerNotObject source))
  let pairs ← tables.mapM fun es => do
    let key ← (Value.fieldOr "key" es (.str "")).asKey
    .ok (key, Value.fieldOr "value" es (.str ""))
  .ok (Assoc.ofList pairs)

/-- A decoded document as a request; `source` names it in failures. -/
def ofDocument (data : Value) (source : Text) (supply : Supply) :
    Result (SavedRequest × Supply) := do
  let entries ←
    match data with
    | .map es => .ok es
    | _ => .error (.request (.notObject source))
  if !(Value.fieldOr "url" entries .null).isTrue then .error (.request (.noUrl source))
  let entries ←
    match (Value.fieldOr "headers" entries .null).orElse (.map []) with
    | .list items => do
      let headers ← headersOfList source items
      .ok (Assoc.put (.str "headers") (.map headers) entries)
    | .map _ => .ok entries
    | _ => .error (.request (.headersNotTable source))
  let entries ←
    match Value.fieldOr "body" entries .null with
    | .null => .ok entries
    | .str _ => .ok entries
    | body => do
      let text ← Json.lineText body
      .ok (Assoc.put (.str "body") (.str text) entries)
  ofValue (.map entries) supply

/-- How failures with request files are told. -/
def documentFailures (path : Path) : Files.DocumentFailures where
  malformed fault := .request (.malformed path.text true fault)
  unreadable fault := .request (.unreadable path.text fault)
  unwritable fault := .request (.unwritable path.text fault)

/-- The request in a file. -/
def load (files : Files) (path : Path) (supply : Supply) : Result (SavedRequest × Supply) := do
  let there ← files.pathExists path
  if !there then .error (.requestFileNotFound path.text)
  let data ← files.readDocument path (documentFailures path)
  ofDocument data path.text supply

/-- The request in a text that was read from a stream. -/
def ofStream (text source : Text) (supply : Supply) : Result (SavedRequest × Supply) :=
  match Json.read text with
  | .ok data => ofDocument data source supply
  | .error fault => .error (fault.failure fun f => .request (.malformed source false f))

/-- Save the request in a file. -/
def save (files : Files) (path : Path) (r : SavedRequest) : Files × Result Unit :=
  files.writeDocument path r.toValue (documentFailures path)

end HttpWorkbench.SavedRequest
