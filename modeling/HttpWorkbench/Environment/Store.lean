import HttpWorkbench.Environment.Placeholder
import HttpWorkbench.Request.Saved

/-!
# Environments

Named tables of variables, one of which may be selected. A text is resolved against the selected
table: each placeholder whose name the table has is replaced by the variable's value, all at
once, and every other character stays. An operation that fails changes nothing.
-/

namespace HttpWorkbench

/-- A table of variables. -/
abbrev VariableTable := List (Value × Value)

/-- Named tables of variables and the name of the selected one. -/
structure EnvironmentStore where
  environments : List (Value × VariableTable)
  active : Option Value

namespace EnvironmentStore

/-- No tables, none selected. -/
def empty : EnvironmentStore := ⟨[], none⟩

/-- The table with a name. -/
def table (store : EnvironmentStore) (name : Value) : Result VariableTable := do
  let key ← name.asKey
  match Assoc.get? key store.environments with
  | some bindings => .ok bindings
  | none => .error (.environment (.unknown name.text))

/-- Select a table by its name, or none. -/
def activate (store : EnvironmentStore) (name : Value) : Result EnvironmentStore :=
  match name with
  | .null => .ok { store with active := none }
  | name => do
    let _ ← store.table name
    .ok { store with active := some name }

/-- The tables that a value describes. -/
def tablesOfValue (environments : Value) : Result (List (Value × VariableTable)) := do
  let entries ← (environments.orElse (.map [])).entriesFor "items"
  entries.mapM fun (name, bindings) => do
    let bindings ← bindings.toDictionary
    .ok (name, bindings)

/-- A store with the given tables and selection. -/
def make (environments active : Value) : Result EnvironmentStore := do
  let tables ← tablesOfValue environments
  let store : EnvironmentStore := ⟨tables, none⟩
  match active with
  | .null => .ok store
  | name => store.activate name

/-- Create or replace a table. -/
def add (store : EnvironmentStore) (name bindings : Value) : Result EnvironmentStore := do
  let bindings ← (bindings.orElse (.map [])).toDictionary
  let key ← name.asKey
  .ok { store with environments := Assoc.put key bindings store.environments }

/-- Remove a table, telling whether it was there. Removing the selected one selects none. -/
def remove (store : EnvironmentStore) (name : Value) : Result (Bool × EnvironmentStore) := do
  let key ← name.asKey
  if Assoc.contains key store.environments then
    .ok (true, {
      environments := Assoc.erase key store.environments
      active := if store.active.any (·.isEqual key) then none else store.active })
  else .ok (false, store)

/-- The name of the table that an operation is about: the one given, or the selected one. -/
def target (store : EnvironmentStore) (environment : Value) : Result Value := do
  let name ←
    match environment, store.active with
    | .null, none => .error (.environment .noneSelected)
    | .null, some name => .ok name
    | name, _ => .ok name
  let _ ← store.table name
  .ok name

/-- Set a variable. -/
def setVariable (store : EnvironmentStore) (key value environment : Value) :
    Result EnvironmentStore := do
  let name ← store.target environment
  let bindings ← store.table name
  let key ← key.asKey
  .ok { store with
    environments := Assoc.put name (Assoc.put key value bindings) store.environments }

/-- Remove a variable, telling whether it had a value. -/
def removeVariable (store : EnvironmentStore) (key environment : Value) :
    Result (Bool × EnvironmentStore) := do
  let name ← store.target environment
  let bindings ← store.table name
  if bindings.isEmpty then .ok (false, store)
  else
    let key ← key.asKey
    let hadValue :=
      match Assoc.get? key bindings with
      | none => false
      | some .null => false
      | some _ => true
    .ok (hadValue, { store with
      environments := Assoc.put name (Assoc.erase key bindings) store.environments })

/-- The variables of a table, by default of the selected one; none when none is selected. -/
def bindings (store : EnvironmentStore) (environment : Value) : Result VariableTable :=
  match environment, store.active with
  | .null, none => .ok []
  | .null, some name => store.table name
  | name, _ => store.table name

/-- What stands for a fragment: the variable's value for a placeholder that the table has, unless
that is null, else the text as it is. -/
def substitute? (bindings : VariableTable) : Placeholder.Fragment → Option Value
  | .gap text => some (.str text)
  | .placeholder o =>
    match Assoc.get? (.str o.name) bindings with
    | none => some (.str o.whole)
    | some .null => none
    | some v => some v

/-- A text with every placeholder that the table has replaced. -/
def substituteText (bindings : VariableTable) (s : Text) : Result Text := do
  let fragments := Placeholder.fragments (Placeholder.pieces s)
  let parts ← Value.joinFrom "" 0 (fragments.filterMap (substitute? bindings))
  .ok (Text.join "" parts)

/-- A value resolved against the selected table. What is empty or holds no doubled brace is kept,
whatever its kind. -/
def resolve (store : EnvironmentStore) (v : Value) : Result Value :=
  if !v.isTrue then .ok v
  else do
    let mayHold ← Value.isIn (.str "\x7b\x7b") v
    if !mayHold then .ok v
    else
      let bindings ← store.bindings .null
      match v with
      | .str s => do
        let resolved ← substituteText bindings s
        .ok (.str resolved)
      | v => misused (.patternNeedsText v.kindName)

/-- A dictionary with its keys and values resolved. -/
def resolveEntries (store : EnvironmentStore) (entries : List (Value × Value)) :
    Result (List (Value × Value)) := do
  let pairs ← entries.mapM fun (k, v) => do
    let k ← store.resolve k
    let v ← store.resolve v
    .ok (k, v)
  .ok (Assoc.ofList pairs)

/-- A copy of a request with its url, header keys and values, and body resolved. -/
def resolveRequest (store : EnvironmentStore) (r : SavedRequest) : Result SavedRequest := do
  let url ← store.resolve r.url
  let entries ← r.headers.entriesFor "items"
  let headers ← store.resolveEntries entries
  let body ←
    match r.body with
    | .null => .ok .null
    | body => store.resolve body
  .ok { r with url, headers := .map headers, body }

/-- The stored form. -/
def toValue (store : EnvironmentStore) : Value :=
  .ofFields [
    ("active", store.active.getD .null),
    ("environments", .map (store.environments.map fun (name, bindings) => (name, .map bindings)))]

end EnvironmentStore

end HttpWorkbench
