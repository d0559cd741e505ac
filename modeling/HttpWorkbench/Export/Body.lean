import HttpWorkbench.Export.Descriptor

/-!
# What of a request is sent

Only some methods carry a body, a body may have the shape of a JSON object, and a header whose
key is blank is passed over. Bodies and keys should be texts; the rules say what happens to
anything else.
-/

namespace HttpWorkbench.Export

/-- The methods that carry a body. -/
def bodyMethods : List Text := ["PATCH", "POST", "PUT"]

/-- Whether a body goes with the method. An empty text does; only null does not. -/
def carriesBody (method body : Value) : Result Bool :=
  match body with
  | .null => .ok false
  | _ => do
    let key ← method.asKey
    .ok <|
      match key with
      | .str name => bodyMethods.contains name
      | _ => false

/-- Whether the first character of a body, blanks aside, opens an object. -/
def isJsonBody (body : Value) : Result Bool :=
  match body with
  | .null => .ok false
  | body => do
    let trimmed ← body.trimmed
    match trimmed with
    | .str s => .ok (s.head? == some '\x7b')
    | _ => misused .bytesPrefixNeeded

/-- Whether a header key is empty or all blanks. -/
def isBlankKey (key : Value) : Result Bool := do
  let trimmed ← key.trimmed
  .ok (!trimmed.isTrue)

/-- The headers whose key is not blank, in order. -/
def usableHeaders : List Header → Result (List Header)
  | [] => .ok []
  | h :: rest => do
    let blank ← isBlankKey h.key
    let more ← usableHeaders rest
    .ok (if blank then more else h :: more)

/-- The value of the first header for the type of the content, case aside; null if there is none. -/
def contentType : List Header → Result Value
  | [] => .ok .null
  | h :: rest => do
    let key ← h.key.lowered
    if key == .str "content-type" then .ok h.value else contentType rest

/-- The name of a client's method for a request method: the first character as it is, the others
small. -/
def clientMethod : Value → Result Value
  | .str s => .ok (.str (s.take 1 ++ Text.lower (s.drop 1)))
  | .bytes b => .ok (.bytes (b.take 1 ++ (b.drop 1).map Value.lowerByte))
  | .list _ => misused (.noAttribute "list" "lower")
  | .map _ => misused (.unhashable "slice")
  | v => misused (.notIndexable v.kindName)

end HttpWorkbench.Export
