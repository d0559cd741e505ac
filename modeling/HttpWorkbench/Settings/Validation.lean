import HttpWorkbench.Export.Registry
import HttpWorkbench.Settings.Basic

/-!
# Validating settings

Warnings about settings that no command can use. Truth values count as integers.
-/

namespace HttpWorkbench.Settings

/-- The names of log levels that settings may use. -/
def levelNames : List Text := ["DEBUG", "INFO", "WARNING", "ERROR", "CRITICAL"]

/-- Whether a value is an integer that satisfies a test. -/
def isInteger (test : Int → Bool) (v : Value) : Bool := v.asInt?.any test

/-- Whether a value is the name of a log level, in any case. -/
def isLevelName (v : Value) : Result Bool := do
  let upper ← v.uppered
  .ok <|
    match upper with
    | .str name => levelNames.contains name
    | _ => false

/-- A warning about a setting, unless it is fine. -/
def warnUnless (fine : Bool) (what : Text) (v : Value) : List Text :=
  if fine then [] else [what ++ ": " ++ v.text]

/-- What is wrong with the settings; a language is fine when the registry has it. -/
def validate (s : Settings) (registry : Export.Registry) : Result (List Text) := do
  let isLevel ← isLevelName s.logLevel
  .ok (warnUnless (isInteger (0 < ·) s.timeout) "Invalid timeout_ms" s.timeout ++
    warnUnless (isInteger (0 ≤ ·) s.historyLimit) "Invalid max_history_items" s.historyLimit ++
    warnUnless (registry.isSupported s.defaultLanguage) "Unsupported default_language"
      s.defaultLanguage ++
    warnUnless isLevel "Invalid log_level" s.logLevel)

end HttpWorkbench.Settings
