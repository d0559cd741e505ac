import HttpWorkbench.Failure.Misuse
import HttpWorkbench.Json.Fault
import HttpWorkbench.Storage.Fault
import HttpWorkbench.Text.Utf8

/-!
# Failures

Every way in which an operation of the library can end without a result. A failure is a cause
with what its message names; the words are in `Failure.message` alone.
-/

namespace HttpWorkbench

/-- Why a template gives no text. -/
inductive TemplateReason where
  /-- A name that the context does not bind. -/
  | unbound (name : Text)
  /-- A bound value without the part that is asked for; the owner is named by its kind. -/
  | noPart (owner part : Text)
  /-- No template of that name in the directory, if there is a directory. -/
  | notFound (name : Text) (directory : Option Text)
  | misuse (cause : Misuse)
  deriving DecidableEq, Repr

/-- Why a registration or lookup is refused. -/
inductive RegistryReason where
  | notGenerator
  | aliasIsTag (name : Text)
  | aliasTaken (name : Text) (owner : Language)
  deriving DecidableEq, Repr

/-- Why there are no settings. -/
inductive SettingsReason where
  | notFound (path : Text)
  | notJsonFile (path : Text)
  | malformed (path : Text) (fault : Json.Fault)
  | unreadable (path : Text) (fault : FileFault)
  | notObject (path : Text)
  | unwritable (path : Text) (fault : FileFault)
  deriving DecidableEq, Repr

/-- Why an environment cannot be used. -/
inductive EnvironmentReason where
  | unknown (name : Text)
  | noneSelected
  | malformed (path : Text) (fault : Json.Fault)
  | unreadable (path : Text) (fault : FileFault)
  | notObject (path : Text)
  | unwritable (path : Text) (fault : FileFault)
  deriving DecidableEq, Repr

/-- Why a history file cannot be used. -/
inductive HistoryReason where
  | malformed (path : Text) (fault : Json.Fault)
  | unreadable (path : Text) (fault : FileFault)
  | notArray (path : Text)
  | invalidEntry (path : Text) (cause : Misuse)
  | unwritable (path : Text) (fault : FileFault)
  deriving DecidableEq, Repr

/-- Why a request cannot be loaded or saved. A source is a file or the name of a stream. -/
inductive RequestReason where
  | malformed (source : Text) (isFile : Bool) (fault : Json.Fault)
  | unreadable (path : Text) (fault : FileFault)
  | unwritable (path : Text) (fault : FileFault)
  | notObject (source : Text)
  | noUrl (source : Text)
  | headerNotObject (source : Text)
  | headersNotTable (source : Text)
  deriving DecidableEq, Repr

/-- Why a request was not answered. -/
inductive SendReason where
  | timeoutNotPositive (shown : Text)
  | notConnected (url : Text)
  | refused (url detail : Text)
  deriving DecidableEq, Repr

/-- Why a command cannot start its work. -/
inductive CommandReason where
  | inputRequired
  | notLoaded (detail : Text)
  | environment (detail : Text)
  deriving DecidableEq, Repr

/-- An operation ended without a result. -/
inductive Failure where
  | misuse (cause : Misuse)
  | undecodable (fault : Text.Utf8.Fault)
  | unencodable (fault : Text.Utf8.EncodingFault)
  /-- The system refuses a path where no operation on a document expects it. -/
  | system (fault : FileFault)
  | noTemplate (generator : Text)
  | template (name : Text) (reason : TemplateReason)
  | registry (reason : RegistryReason)
  | unsupportedLanguage (language : Text) (available : List Language)
  | settings (reason : SettingsReason)
  | environment (reason : EnvironmentReason)
  | history (reason : HistoryReason)
  | request (reason : RequestReason)
  | requestFileNotFound (path : Text)
  | send (reason : SendReason)
  | timedOut (url seconds : Text)
  | command (reason : CommandReason)
  /-- The transport broke down in a way that is not about the request. -/
  | broken (detail : Text)
  /-- The user stopped the exchange. -/
  | interrupted (detail : Text)
  deriving DecidableEq, Repr

namespace TemplateReason

/-- The reason in words. -/
def message : TemplateReason → Text
  | .unbound name => Text.quoted name ++ " is undefined"
  | .noPart owner part => Text.quoted owner ++ " has no attribute " ++ Text.quoted part
  | .notFound name none => name
  | .notFound name (some directory) =>
    Text.quoted name ++ " not found in search path: " ++ Text.quoted directory
  | .misuse cause => cause.message

end TemplateReason

namespace RegistryReason

/-- The reason in words. -/
def message : RegistryReason → Text
  | .notGenerator => "Generator class must inherit from CodeGenerator"
  | .aliasIsTag name => "Alias '" ++ name ++ "' conflicts with existing primary language"
  | .aliasTaken name owner => "Alias '" ++ name ++ "' already points to '" ++ owner.tag ++ "'"

end RegistryReason

namespace SettingsReason

/-- The reason in words. -/
def message : SettingsReason → Text
  | .notFound path => "Configuration file not found: " ++ path
  | .notJsonFile path => "Configuration file must be JSON: " ++ path
  | .malformed path fault => "Invalid JSON in configuration file " ++ path ++ ": " ++ fault.message
  | .unreadable path fault =>
    "Failed to load configuration file " ++ path ++ ": " ++ fault.message
  | .notObject path => "Configuration file must contain a JSON object: " ++ path
  | .unwritable path fault => "Failed to save configuration to " ++ path ++ ": " ++ fault.message

end SettingsReason

namespace EnvironmentReason

/-- The reason in words. -/
def message : EnvironmentReason → Text
  | .unknown name => "Unknown environment: " ++ name
  | .noneSelected => "No environment selected"
  | .malformed path fault => "Invalid JSON in environment file " ++ path ++ ": " ++ fault.message
  | .unreadable path fault => "Error reading environment file " ++ path ++ ": " ++ fault.message
  | .notObject path => "Environment file must contain a JSON object: " ++ path
  | .unwritable path fault => "Error writing environment file " ++ path ++ ": " ++ fault.message

end EnvironmentReason

namespace HistoryReason

/-- The reason in words. -/
def message : HistoryReason → Text
  | .malformed path fault => "Invalid JSON in history file " ++ path ++ ": " ++ fault.message
  | .unreadable path fault => "Error reading history file " ++ path ++ ": " ++ fault.message
  | .notArray path => "History file must contain a JSON array: " ++ path
  | .invalidEntry path cause => "Invalid entry in history file " ++ path ++ ": " ++ cause.message
  | .unwritable path fault => "Error writing history file " ++ path ++ ": " ++ fault.message

end HistoryReason

namespace RequestReason

/-- The reason in words. -/
def message : RequestReason → Text
  | .malformed source isFile fault =>
    "Invalid JSON in " ++ (if isFile then "file " else "") ++ source ++ ": " ++ fault.message
  | .unreadable path fault => "Error reading file " ++ path ++ ": " ++ fault.message
  | .unwritable path fault => "Error writing file " ++ path ++ ": " ++ fault.message
  | .notObject source => "Request in " ++ source ++ " must be a JSON object"
  | .noUrl source => "Request in " ++ source ++ " has no url"
  | .headerNotObject source => "Header entries in " ++ source ++ " must be objects"
  | .headersNotTable source => "Headers in " ++ source ++ " must be an object or a list"

end RequestReason

namespace SendReason

/-- The reason in words. -/
def message : SendReason → Text
  | .timeoutNotPositive shown =>
    "Timeout must be a positive number of milliseconds, got " ++ shown
  | .notConnected url => "Connection error for URL: " ++ url
  | .refused url detail => "Request error for URL " ++ url ++ ": " ++ detail

end SendReason

namespace CommandReason

/-- The reason in words. -/
def message : CommandReason → Text
  | .inputRequired => "Input required (file, --stdin, or --url)"
  | .notLoaded detail => "Failed to load request: " ++ detail
  | .environment detail => "Environment error: " ++ detail

end CommandReason

namespace Failure

/-- What is told of the languages that there are. -/
def availability : List Language → Text
  | [] => []
  | available => ". Available: " ++ Text.join ", " (available.map fun l => l.tag)

/-- The failure in words. -/
def message : Failure → Text
  | .misuse cause => cause.message
  | .undecodable fault => fault.message
  | .unencodable fault => fault.message
  | .system fault => fault.message
  | .noTemplate generator => generator ++ " defines no template"
  | .template name reason => "Failed to render " ++ name ++ ": " ++ reason.message
  | .registry reason => reason.message
  | .unsupportedLanguage language available =>
    "Language " ++ language ++ " not supported" ++ availability available
  | .settings reason => reason.message
  | .environment reason => reason.message
  | .history reason => reason.message
  | .request reason => reason.message
  | .requestFileNotFound path => "File not found: " ++ path
  | .send reason => reason.message
  | .timedOut url seconds => "Request to " ++ url ++ " timed out after " ++ seconds ++ "s"
  | .command reason => reason.message
  | .broken detail => detail
  | .interrupted detail => detail

end Failure

/-- A result or the failure that kept it from being made. -/
abbrev Result (α : Type) := Except Failure α

/-- End with a misuse. -/
def misused (cause : Misuse) : Result α := .error (.misuse cause)

end HttpWorkbench
