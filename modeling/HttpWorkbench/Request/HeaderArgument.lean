import HttpWorkbench.Value.Access

/-!
# Headers on the command line

A header is given as its key, a colon and its value. The first colon separates the two, blanks
around either do not count, and a text without a colon is a key with an empty value.
-/

namespace HttpWorkbench.HeaderArgument

/-- The key and value of one argument. -/
def split (argument : Text) : Text × Text :=
  let (key, value) := Text.cutAt ':' argument
  (Text.trim key, Text.trim value)

/-- The header table of a list of arguments; of a repeated key the last value counts. -/
def table (arguments : List Text) : List (Text × Text) :=
  Assoc.ofList (arguments.map split)

/-- The argument as a text. -/
def ofValue : Value → Result Text
  | .str s => .ok s
  | .bytes _ => misused (.bytesNeeded "str")
  | v => misused (.noAttribute v.kindName "partition")

/-- The header table of values that should be arguments. -/
def tableOfValue (v : Value) : Result (List (Text × Text)) := do
  let items ← v.items
  let arguments ← items.mapM ofValue
  .ok (table arguments)

end HttpWorkbench.HeaderArgument
