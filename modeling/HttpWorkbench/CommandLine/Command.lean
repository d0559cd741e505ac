import HttpWorkbench.CommandLine.Reading
import HttpWorkbench.Request.Saved

/-!
# Commands

The commands of the program with their options, and a command line as one of them.
-/

namespace HttpWorkbench.CommandLine

/-- Which request a command works on, and what to change in it. Where an argument was emptied, an
option that would not count with an empty argument is as if it were not given. -/
structure RequestOptions where
  file : Option Text
  fromInput : Bool
  method : Option Text
  url : Option Text
  headers : List Value
  body : Option Value
  environmentFile : Option Text
  environment : Option Text

/-- How a program is exported. -/
structure ExportOptions where
  request : RequestOptions
  language : Option Text
  output : Option Text
  plain : Bool
  verbose : Bool

/-- How a request is sent. -/
structure SendOptions where
  request : RequestOptions
  timeout : Option Value
  historyFile : Option Text
  showHeaders : Bool

/-- What is done with the history. -/
structure HistoryOptions where
  historyFile : Option Text
  search : Option Text
  clear : Bool
  deriving DecidableEq, Repr

/-- What the program is asked to do. -/
inductive Command where
  | exportProgram (options : ExportOptions)
  | languages (info : Option Text)
  | send (options : SendOptions)
  | history (options : HistoryOptions)

/-- A command with the options of the program itself. -/
structure Invocation where
  settingsFile : Option Text
  logLevel : Option Text
  /-- Nothing when no command is named. -/
  command : Option Command

/-- The option that shows what a command takes. -/
def helpOption : OptionSpec := ⟨"help", ["-h", "--help"], .help⟩

/-- An option with an argument. -/
def textOption (key : Text) (names : List Text) : OptionSpec := ⟨key, names, .argument .any⟩

/-- The options that describe a request. -/
def requestOptions : List OptionSpec := [
  ⟨"stdin", ["--stdin"], .flag⟩,
  ⟨"method", ["--method", "-X"], .argument (.choice httpMethods)⟩,
  textOption "url" ["--url", "-u"],
  textOption "header" ["--header", "-H"],
  textOption "data" ["--data", "-d"],
  textOption "env_file" ["--env-file"],
  textOption "env" ["--env"]]

/-- What the command that exports programs takes. -/
def exportGrammar : Grammar where
  options := helpOption :: requestOptions ++ [
    textOption "language" ["--language", "-l"],
    textOption "output" ["--output", "-o"],
    ⟨"plain", ["--plain"], .flag⟩,
    ⟨"verbose", ["--verbose"], .flag⟩]
  positional := .one "file"

/-- What the command that lists languages takes. -/
def languagesGrammar : Grammar where
  options := [helpOption, textOption "info" ["--info"]]
  positional := .nothing

/-- What the command that sends requests takes. -/
def sendGrammar : Grammar where
  options := helpOption :: requestOptions ++ [
    ⟨"timeout", ["--timeout"], .argument .integer⟩,
    textOption "history_file" ["--history-file"],
    ⟨"include_headers", ["--include-headers", "-i"], .flag⟩]
  positional := .one "file"

/-- What the command that shows the history takes. -/
def historyGrammar : Grammar where
  options := [
    helpOption,
    textOption "history_file" ["--history-file"],
    textOption "search" ["--search"],
    ⟨"clear", ["--clear"], .flag⟩]
  positional := .nothing

/-- A request as the options describe it. -/
def RequestOptions.ofReading (r : Reading) : RequestOptions where
  file := r.text? "file"
  fromInput := r.flag "stdin"
  method := r.text? "method"
  url := r.text? "url"
  headers := (r.all "header").map Argument.value
  body := r.value? "data"
  environmentFile := r.text? "env_file"
  environment := r.text? "env"

/-- The command that exports programs. -/
def exportCommand (r : Reading) : Command :=
  .exportProgram {
    request := .ofReading r
    language := r.text? "language"
    output := r.text? "output"
    plain := r.flag "plain"
    verbose := r.flag "verbose" }

/-- The command that sends requests. -/
def sendCommand (r : Reading) : Command :=
  .send {
    request := .ofReading r
    timeout := r.value? "timeout"
    historyFile := r.text? "history_file"
    showHeaders := r.flag "include_headers" }

/-- The command that shows the history. -/
def historyCommand (r : Reading) : Command :=
  .history {
    historyFile := r.text? "history_file"
    search := r.text? "search"
    clear := r.flag "clear" }

/-- The commands by name, with what they take and what it comes to. -/
def commands : List (Text × Grammar × (Reading → Command)) := [
  ("codegen", exportGrammar, exportCommand),
  ("languages", languagesGrammar, fun r => .languages (r.text? "info")),
  ("send", sendGrammar, sendCommand),
  ("history", historyGrammar, historyCommand)]

/-- What the program itself takes. -/
def programGrammar : Grammar where
  options := [
    helpOption,
    ⟨"version", ["--version"], .version⟩,
    textOption "config" ["--config"],
    ⟨"log_level", ["--log-level"], .argument (.choice ["DEBUG", "INFO", "WARNING", "ERROR"])⟩]
  positional := .command (commands.map Prod.fst)

/-- The command that was named, and the words that it does not take. -/
def readCommand : Option (Text × List Text) → Except Stop (Option Command × List Text)
  | none => .ok (none, [])
  | some (name, arguments) =>
    match Assoc.get? name commands with
    | none => .ok (none, [])
    | some (grammar, toCommand) => do
      let r ← grammar.read arguments
      .ok (some (toCommand r), r.leftover)

/-- A command line as an invocation. -/
def Invocation.read (arguments : List Text) : Except Stop Invocation := do
  let r ← programGrammar.read arguments
  let (command, leftover) ← readCommand r.command
  match r.leftover ++ leftover with
  | [] => .ok { settingsFile := r.text? "config", logLevel := r.text? "log_level", command }
  | words => .error (.fault (.unrecognized words))

end HttpWorkbench.CommandLine
