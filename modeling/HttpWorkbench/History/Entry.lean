import HttpWorkbench.Value.Record

/-!
# History entries

One executed request with its outcome: a response, or the error that came instead.
-/

namespace HttpWorkbench

/-- An executed request. -/
structure HistoryEntry where
  id : Value
  method : Value
  url : Value
  timestamp : Value
  headers : Value
  body : Value
  status : Value
  statusText : Value
  responseTime : Value
  responseBody : Value
  responseHeaders : Value
  tags : Value
  error : Value

namespace HistoryEntry

/-- The field names of the stored form. -/
def shape : RecordShape where
  name := "HistoryItem"
  required := ["id", "method", "url", "timestamp"]
  optional := ["headers", "body", "status", "status_text", "response_time", "response_body",
    "response_headers", "tags", "error"]

/-- An entry with the given fields; the others have their defaults. -/
def ofArguments (args : List (Text × Value)) : HistoryEntry :=
  let field (name : Text) (other : Value) : Value := (Assoc.get? name args).getD other
  { id := field "id" .null
    method := field "method" .null
    url := field "url" .null
    timestamp := field "timestamp" .null
    headers := field "headers" (.list [])
    body := field "body" .null
    status := field "status" .null
    statusText := field "status_text" .null
    responseTime := field "response_time" .null
    responseBody := field "response_body" .null
    responseHeaders := field "response_headers" (.map [])
    tags := field "tags" (.list [])
    error := field "error" .null }

/-- An entry from its stored form. Names that are no fields are passed over. -/
def ofValue (data : Value) : Result HistoryEntry := do
  let entries ← data.entriesFor "items"
  let known := entries.filter fun (k, _) =>
    match k with
    | .str s => shape.fields.contains s
    | _ => false
  let args ← shape.arguments known
  .ok (ofArguments args)

/-- The fields by name. -/
def fields (e : HistoryEntry) : List (Text × Value) :=
  [("id", e.id), ("method", e.method), ("url", e.url), ("timestamp", e.timestamp),
    ("headers", e.headers), ("body", e.body), ("status", e.status), ("status_text", e.statusText),
    ("response_time", e.responseTime), ("response_body", e.responseBody),
    ("response_headers", e.responseHeaders), ("tags", e.tags), ("error", e.error)]

/-- Whether two entries are equal, field by field. -/
def same (e f : HistoryEntry) : Bool :=
  Value.sameItems (e.fields.map Prod.snd) (f.fields.map Prod.snd)

/-- The stored form. -/
def toValue (e : HistoryEntry) : Result Value := (Value.storedFields e.fields).map .map

end HistoryEntry

end HttpWorkbench
