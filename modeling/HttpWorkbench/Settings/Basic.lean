import HttpWorkbench.History.Store

/-!
# Settings

What a user can set once for all commands. Settings come in layers: the defaults, a file, and
overrides, where a later layer wins key by key. Keys that are no settings are kept in a table of
their own.
-/

namespace HttpWorkbench

/-- The settings of the program, as given. -/
structure Settings where
  timeout : Value
  historyLimit : Value
  historyFile : Value
  environmentFile : Value
  activeEnvironment : Value
  defaultLanguage : Value
  logLevel : Value
  custom : Value

namespace Settings

/-- The limit on the time of an exchange, in milliseconds, when none is set. -/
def defaultTimeout : Int := 30000

/-- The field names of the stored form. -/
def shape : RecordShape where
  name := "AppConfig"
  required := []
  optional := ["timeout_ms", "max_history_items", "history_file", "environment_file",
    "active_environment", "default_language", "log_level", "custom"]

/-- Settings with the given fields; the others have their defaults. -/
def ofArguments (args : List (Text × Value)) : Settings :=
  let field (name : Text) (other : Value) : Value := (Assoc.get? name args).getD other
  { timeout := field "timeout_ms" (.int defaultTimeout)
    historyLimit := field "max_history_items" (.int defaultHistoryLimit)
    historyFile := field "history_file" .null
    environmentFile := field "environment_file" .null
    activeEnvironment := field "active_environment" .null
    defaultLanguage := field "default_language" (.str "curl")
    logLevel := field "log_level" (.str "WARNING")
    custom := field "custom" (.map []) }

/-- Every setting at its default. -/
def default : Settings := ofArguments []

/-- Settings from named arguments. -/
def make (entries : List (Value × Value)) : Result Settings := do
  let args ← shape.arguments entries
  .ok (ofArguments args)

/-- The settings proper by name, without the custom ones. -/
def ownFields (s : Settings) : List (Text × Value) :=
  [("timeout_ms", s.timeout), ("max_history_items", s.historyLimit),
    ("history_file", s.historyFile), ("environment_file", s.environmentFile),
    ("active_environment", s.activeEnvironment), ("default_language", s.defaultLanguage),
    ("log_level", s.logLevel)]

/-- The settings proper as a table. -/
def ownEntries (s : Settings) : List (Value × Value) :=
  s.ownFields.map fun (name, v) => (.str name, v)

/-- The stored form of the whole record. -/
def toValue (s : Settings) : Result Value :=
  (Value.storedFields (s.ownFields ++ [(("custom" : Text), s.custom)])).map .map

/-- Whether a key of a layer is the name of a setting. -/
def isKnown : Value → Bool
  | .str name => shape.fields.contains name
  | _ => false

/-- The settings that merged layers describe. Unknown keys overlay the custom table. -/
def ofLayers (entries : List (Value × Value)) : Result Settings := do
  let known := entries.filter fun e => isKnown e.1
  let unknown := entries.filter fun e => !isKnown e.1
  if unknown.isEmpty then make known
  else
    let table ← ((Value.fieldOr "custom" known .null).orElse (.map [])).toDictionary
    make (Assoc.put (.str "custom") (.map (Assoc.putAll table unknown)) known)

/-- An example of a settings file. -/
def sample : List (Value × Value) :=
  [(.str "timeout_ms", .int 10000), (.str "max_history_items", .int 100),
    (.str "history_file", .str "history.json"),
    (.str "environment_file", .str "environments.json"),
    (.str "active_environment", .str "staging"), (.str "default_language", .str "python")]

end Settings

end HttpWorkbench
