import HttpWorkbench.Clock.Timestamp
import HttpWorkbench.Value.Record

/-!
# Saved requests

A request as its author edits and saves it, with the bookkeeping that a store needs. The fields
hold whatever a document or caller put there; what needs a text checks for one.
-/

namespace HttpWorkbench

/-- The methods that the command line offers. -/
def httpMethods : List Text := ["GET", "POST", "PUT", "DELETE", "PATCH", "HEAD", "OPTIONS"]

/-- A request as it is saved. -/
structure SavedRequest where
  method : Value
  url : Value
  headers : Value
  body : Value
  name : Value
  id : Value
  createdAt : Value
  updatedAt : Value

namespace SavedRequest

/-- The field names of the stored form. -/
def shape : RecordShape where
  name := "RequestItem"
  required := ["method", "url"]
  optional := ["headers", "body", "name", "id", "created_at", "updated_at"]

/-- The fields by name. -/
def fields (r : SavedRequest) : List (Text × Value) :=
  [("method", r.method), ("url", r.url), ("headers", r.headers), ("body", r.body),
    ("name", r.name), ("id", r.id), ("created_at", r.createdAt), ("updated_at", r.updatedAt)]

/-- The stored form. -/
def toValue (r : SavedRequest) : Result Value := (Value.storedFields r.fields).map .map

/-- A request with the given fields. A missing identifier is drawn from the supply, missing times
are the clock's. -/
def ofArguments (args : List (Text × Value)) (supply : Supply) : SavedRequest × Supply :=
  let field (name : Text) (other : Value) : Value := (Assoc.get? name args).getD other
  let now : Value := .str (timestamp supply.now)
  let (id, supply) :=
    match Assoc.get? ("id" : Text) args with
    | some id => (id, supply)
    | none => let (id, supply) := supply.draw; (.str id, supply)
  ({ method := field "method" .null
     url := field "url" .null
     headers := field "headers" (.map [])
     body := field "body" .null
     name := field "name" (.str "")
     id
     createdAt := field "created_at" now
     updatedAt := field "updated_at" now }, supply)

/-- A request from named arguments. -/
def make (entries : List (Value × Value)) (supply : Supply) : Result (SavedRequest × Supply) := do
  let args ← shape.arguments entries
  .ok (ofArguments args supply)

/-- A request from its stored form. Method and url become texts, headers a dictionary; bookkeeping
that is missing or empty is filled in. -/
def ofValue (data : Value) (supply : Supply) : Result (SavedRequest × Supply) := do
  let entries ← data.entriesFor "get"
  let headers ← ((Value.fieldOr "headers" entries .null).orElse (.map [])).toDictionary
  let bookkeeping : List Text := ["id", "created_at", "updated_at"]
  let kept := bookkeeping.filterMap fun name =>
    match Value.field? name entries with
    | some v => if v.isTrue then some (name, v) else none
    | none => none
  let described : List (Text × Value) := [
    ("method", .str (Value.fieldOr "method" entries (.str "GET")).text),
    ("url", .str (Value.fieldOr "url" entries (.str "")).text),
    ("headers", .map headers),
    ("body", Value.fieldOr "body" entries .null),
    ("name", Value.fieldOr "name" entries (.str ""))]
  .ok (ofArguments (described ++ kept) supply)

/-- The request marked as changed at the clock's time. -/
def touch (r : SavedRequest) (supply : Supply) : SavedRequest :=
  { r with updatedAt := .str (timestamp supply.now) }

end SavedRequest

end HttpWorkbench
