import HttpWorkbench.Export.Body
import HttpWorkbench.Export.Escape

/-!
# Rules for unchecked arguments

The rules about headers, bodies and quotes for callers that hand over values of any kind. A row of
headers is read one by one, so that what comes after the answer is not looked at.
-/

namespace HttpWorkbench.Export

/-- A value as a header. -/
def headerOfValue : Value → Result Header
  | .header key value => .ok ⟨key, value⟩
  | v => misused (.noAttribute v.kindName "key")

/-- The value of the first content type header of a row. -/
def contentTypeAmong : List Value → Result Value
  | [] => .ok .null
  | v :: rest => do
    let h ← headerOfValue v
    let key ← h.key.lowered
    if key == .str "content-type" then .ok h.value else contentTypeAmong rest

/-- The value of the first content type header of what should be a row of headers. -/
def contentTypeOfValue (headers : Value) : Result Value := do
  let items ← headers.items
  contentTypeAmong items

/-- The headers of a row with a usable key. -/
def usableAmong : List Value → Result (List Header)
  | [] => .ok []
  | v :: rest => do
    let h ← headerOfValue v
    let blank ← isBlankKey h.key
    let more ← usableAmong rest
    .ok (if blank then more else h :: more)

/-- The headers with a usable key of what should be a row of headers. -/
def usableOfValue (headers : Value) : Result (List Header) := do
  let items ← headers.items
  usableAmong items

/-- The rule for a quote; only the two quotes have one. -/
def Escape.ofQuote? : Value → Option Escape
  | .str [c] => if c = '"' ∨ c = '\x27' then some (.backslash c) else none
  | _ => none

/-- A value by a quoting rule. -/
def Escape.ofValue (e : Escape) (v : Value) : Result Value :=
  match e.applyTo v with
  | .ok s => .ok (.str s)
  | .error cause => misused cause

/-- A value by the rule for a quote; without a rule it is left as it is. -/
def quotedFor (v quote : Value) : Result Value :=
  match Escape.ofQuote? quote with
  | some e => e.ofValue v
  | none => .ok v

end HttpWorkbench.Export
