import HttpWorkbench.Request.Saved

/-!
# Request descriptors

What an export needs to know about a request: method, url, body, and the headers as a row of
pairs in the order in which they are written. Headers come in several shapes, a table, pairs or
objects with `key` and `value`, and all of them end in the same row.
-/

namespace HttpWorkbench

/-- One header as it will be written out. -/
structure Header where
  key : Value
  value : Value

/-- A header as a value. -/
def Header.toValue (h : Header) : Value := .header h.key h.value

/-- A header with its parts in words. -/
def Header.ofValues (key value : Value) : Header := ⟨.str key.text, .str value.text⟩

/-- A request without its bookkeeping. -/
structure Descriptor where
  method : Value
  url : Value
  headers : List Header
  body : Value

namespace Descriptor

/-- The header that an item of a list of headers stands for. -/
def headerOfItem : Value → Result Header
  | .header key value => .ok ⟨key, value⟩
  | .map entries =>
    .ok (.ofValues (Value.fieldOr "key" entries (.str ""))
      (Value.fieldOr "value" entries (.str "")))
  | v => do
    let (key, value) ← v.twoParts
    .ok (.ofValues key value)

/-- The headers that a value of any supported shape stands for; nothing stands for none. -/
def headersOfValue (headers : Value) : Result (List Header) :=
  if !headers.isTrue then .ok []
  else
    match headers with
    | .map entries => .ok (entries.map fun (key, value) => .ofValues key value)
    | v => do
      let items ← v.items
      items.mapM headerOfItem

/-- A descriptor from its parts. -/
def make (method url headers body : Value) : Result Descriptor := do
  let headers ← headersOfValue headers
  .ok { method, url, headers, body }

/-- The descriptor of a saved request, its fields as they are. -/
def ofSaved (r : SavedRequest) : Result Descriptor := make r.method r.url r.headers r.body

/-- The descriptor of a request that a value describes; method and url become texts. -/
def ofValue (request : Value) : Result Descriptor := do
  let entries ← request.entriesFor "get"
  make (.str (Value.fieldOr "method" entries (.str "")).text)
    (.str (Value.fieldOr "url" entries (.str "")).text)
    (Value.fieldOr "headers" entries .null) (Value.fieldOr "body" entries .null)

/-- The descriptor as a table. -/
def toValue (d : Descriptor) : Value :=
  .ofFields [("method", d.method), ("url", d.url),
    ("headers", .list (d.headers.map fun h => .ofFields [("key", h.key), ("value", h.value)])),
    ("body", d.body)]

end Descriptor

end HttpWorkbench
