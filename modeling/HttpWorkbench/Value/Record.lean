import HttpWorkbench.Value.Access

/-!
# Records from named arguments

A record is built from a table of named values. Names that the record does not have are refused
in the order of the table, then required names that are missing.
-/

namespace HttpWorkbench

/-- The names of a record's fields, and those that have no default. -/
structure RecordShape where
  name : Text
  required : List Text
  optional : List Text

namespace RecordShape

/-- Every field name. -/
def fields (shape : RecordShape) : List Text := shape.required ++ shape.optional

/-- The arguments by name, when each of them names a field and no required one is missing. -/
def arguments (shape : RecordShape) (entries : List (Value × Value)) :
    Result (List (Text × Value)) := do
  let named : List (Text × Value) ← entries.mapM fun (k, v) =>
    match k with
    | .str s => .ok (s, v)
    | _ => misused .keywordsNotText
  match named.find? fun (s, _) => !shape.fields.contains s with
  | some (s, _) =>
    misused <|
      if s = "self" then .repeatedArgument (shape.name ++ ".__init__") s
      else .unexpectedArgument shape.name s
  | none =>
    match shape.required.filter fun s => !Assoc.contains s named with
    | [] => .ok named
    | missing => misused (.missingArguments shape.name missing)

end RecordShape

namespace Value

/-- How deep lists and maps may nest in a record that is stored. -/
def storedDepth : Nat := 490

mutual

/-- The value with every header in it spread out as a map; `depth` more lists and maps may nest. A
header that is a key cannot be spread out, since a map is no key. -/
def spread (depth : Nat) : Value → Result Value
  | .list xs =>
    match depth with
    | 0 => misused .valueTooDeep
    | depth + 1 => do
      let items ← spreadItems depth xs
      .ok (.list items)
  | .map es =>
    match depth with
    | 0 => misused .valueTooDeep
    | depth + 1 => do
      let entries ← spreadEntries depth es
      .ok (.map entries)
  | .header k v =>
    match depth with
    | 0 => misused .valueTooDeep
    | depth + 1 => do
      let key ← k.spread depth
      let value ← v.spread depth
      .ok (.map [(.str "key", key), (.str "value", value)])
  | v => .ok v
termination_by structural v => v

/-- The items of a list, spread out. -/
def spreadItems (depth : Nat) : List Value → Result (List Value)
  | [] => .ok []
  | x :: xs => do
    let first ← x.spread depth
    let others ← spreadItems depth xs
    .ok (first :: others)
termination_by structural xs => xs

/-- The entries of a map, spread out. -/
def spreadEntries (depth : Nat) : List (Value × Value) → Result (List (Value × Value))
  | [] => .ok []
  | (k, v) :: es => do
    let value ← v.spread depth
    let key ←
      match k with
      | .header _ _ => misused (.unhashable "dict")
      | k => .ok k
    let others ← spreadEntries depth es
    .ok ((key, value) :: others)
termination_by structural es => es

end

/-- Named fields as they are stored. -/
def storedFields (fields : List (Text × Value)) : Result (List (Value × Value)) :=
  fields.mapM fun (name, v) => do
    let stored ← v.spread storedDepth
    .ok (.str name, stored)

end Value

end HttpWorkbench
