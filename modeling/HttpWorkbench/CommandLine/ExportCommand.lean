import HttpWorkbench.CommandLine.RequestInput
import HttpWorkbench.Export.Program

/-!
# Exporting from the command line

The program for a request goes to a file, to the standard output or, highlighted, to the
terminal. Figures and warnings go to the console for diagnostics.
-/

namespace HttpWorkbench.CommandLine

open Export

/-- Tell that a language is not supported. -/
def warnUnsupported (registry : Registry) (language : Value) : Action Unit := do
  Action.warn ("[red]✗ Unsupported language '" ++ language.text ++ "'[/red]")
  Action.warn ("[dim]Supported languages: " ++
    Text.join ", " (registry.languages.map fun l => l.tag) ++ "[/dim]")

/-- The description of a language, unless it is not supported. -/
def supportedInfo (registry : Registry) (language : Value) :
    Result (Option Registry.LanguageInfo) :=
  match registry.info language with
  | .ok (_, info) => .ok (some info)
  | .error (.unsupportedLanguage _ _) => .ok none
  | .error failure => .error failure

/-- The name of a figure as a heading. -/
def heading (name : Text) : Text :=
  Text.title (Text.replaceChar '_' [' '] name)

/-- Show the figures of a program. -/
def showFigures (report : Report) : Action Unit := do
  Action.warn ""
  Action.show .err (.table (some "📊 Generation Metadata") (some ["Property", "Value"])
    (report.metadata.map fun (name, v) => [heading name, v.text]))

/-- Show the warnings about a program. -/
def showWarnings (report : Report) : Action Unit := do
  Action.warn "\n[yellow]⚠️  Warnings:[/yellow]"
  report.warnings.forM fun warning => Action.warn ("  [yellow]•[/yellow] " ++ warning)

/-- Put a program where the options say, telling whether that worked. -/
def deliver (around : Surroundings) (o : ExportOptions) (generator : Generator) (code : Text) :
    Action Bool := do
  match given? o.output with
  | some output =>
    let path := Path.ofText output
    let s ← get
    let (files, result) := s.files.saveText path code
    set { s with files }
    match result with
    | .ok _ =>
      Action.say ("[green]✓[/green] Generated " ++ generator.displayName ++
        " code saved to [cyan]" ++ path.text ++ "[/cyan]")
      pure true
    | .error (.file fault) =>
      Action.warn ("[red]✗ Failed to write to " ++ path.text ++ ":[/red] " ++ fault.message)
      pure false
    | .error (.misuse cause) => throw (.misuse cause)
    | .error (.unencodable fault) => throw (.unencodable fault)
  | none =>
    if o.plain || !around.isTerminal then Action.write (code ++ "\n")
    else Action.show .out (.highlighted generator.syntaxName code)
    pure true

/-- Export a request and say how it went. -/
def exportRequest (around : Surroundings) (o : ExportOptions) (r : SavedRequest)
    (language : Value) : Action Nat := do
  let report ← Action.ofResult (Export.report around.registry (.saved r) language)
  match report.failure, report.errorMessage with
  | some failure, some message =>
    Action.warn ("[red]✗ Code generation failed:[/red] " ++ message)
    Action.warn ("[dim]Details: " ++ failure.message ++ "[/dim]")
    pure 1
  | _, _ =>
    let generator ← Action.ofResult (generatorFor around.registry language)
    let delivered ← deliver around o generator report.code
    if delivered then
      if o.verbose && !report.metadata.isEmpty then showFigures report
      if !report.warnings.isEmpty then showWarnings report
      pure 0
    else pure 1

/-- The request of an export, resolved if there are environments. -/
def exportedRequest (around : Surroundings) (o : RequestOptions) (settings : Settings) :
    Action SavedRequest := do
  let r ← describedRequest around o
  let environments ← loadEnvironments o settings
  match environments with
  | some store => Action.ofResult (store.resolveRequest r)
  | none => pure r

/-- Export a request. -/
def runExport (around : Surroundings) (settings : Settings) (o : ExportOptions) : Action Nat := do
  let language := (Value.ofText? o.language).orElse settings.defaultLanguage
  let info ← Action.ofResult (supportedInfo around.registry language)
  match info with
  | none =>
    warnUnsupported around.registry language
    pure 1
  | some _ =>
    let result ← Action.attempt do
      let r ← exportedRequest around o.request settings
      exportRequest around o r language
    match result with
    | .ok code => pure code
    | .error (.command reason) =>
      Action.warn ("[red]✗ Error:[/red] " ++ reason.message)
      pure 1
    | .error failure => throw failure

end HttpWorkbench.CommandLine
