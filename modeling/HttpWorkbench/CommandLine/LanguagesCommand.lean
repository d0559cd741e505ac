import HttpWorkbench.CommandLine.ExportCommand

/-!
# Listing languages

All supported languages in a table, or one of them in detail with examples of its use.
-/

namespace HttpWorkbench.CommandLine

open Export

/-- The aliases of a language in a row. -/
def aliasText (info : Registry.LanguageInfo) : Result Text :=
  (Value.list (info.aliases.map Alias.toValue)).joined ", "

/-- The row of a language. -/
def languageRow (registry : Registry) (l : Language) : Result (List Text) := do
  let (_, info) ← registry.info (.str l.tag)
  let aliases : Text ←
    if info.aliases.isEmpty then .ok "[dim]none[/dim]" else aliasText info
  .ok [l.tag, info.displayName, info.fileExtension, info.className, aliases]

/-- Show every language. -/
def listLanguages (around : Surroundings) : Action Nat := do
  let rows ← Action.ofResult (around.registry.languages.mapM (languageRow around.registry))
  Action.say ""
  Action.show .out (.table (some "📋 Supported Languages")
    (some ["Language", "Name", "Extension", "Generator Class", "Aliases"]) rows)
  Action.say ""
  Action.show .out (.panel "💡 Quick Start"
    ("[bold]Usage:[/bold] request-explorer codegen [dim]request.json[/dim] --language " ++
      "[cyan]LANGUAGE[/cyan]\n" ++
      "[bold]Info:[/bold] request-explorer languages --info [cyan]LANGUAGE[/cyan]"))
  pure 0

/-- The description of a language. -/
def describedLanguage (info : Registry.LanguageInfo) : Result Text := do
  let aliases ← aliasText info
  let aliasLine : Text := "\n[bold]Aliases:[/bold] " ++ aliases
  .ok <| "[bold]Language:[/bold] " ++ info.name ++
  "\n[bold]Name:[/bold] " ++ info.displayName ++
  "\n[bold]File Extension:[/bold] " ++ info.fileExtension ++
  "\n[bold]Generator Class:[/bold] " ++ info.className ++
  "\n[bold]Module:[/bold] " ++ info.moduleName ++
  (if info.aliases.isEmpty then [] else aliasLine)

/-- Examples of the use of a language. -/
def languageExamples (info : Registry.LanguageInfo) : Text :=
  "Generate from a saved request:\n[cyan]request-explorer codegen request.json --language " ++
  info.name ++ "[/cyan]\n\nGenerate to file:\n[cyan]request-explorer codegen request.json -l " ++
  info.name ++ " -o request" ++ info.fileExtension ++ "[/cyan]"

/-- Show one language. -/
def showLanguage (around : Surroundings) (name : Text) : Action Nat := do
  let info ← Action.ofResult (supportedInfo around.registry (.str name))
  match info with
  | none =>
    Action.warn ("[red]✗ Language '" ++ name ++ "' is not supported[/red]")
    Action.warn "[dim]Use 'request-explorer languages' to see available options[/dim]"
    pure 1
  | some info =>
    let description ← Action.ofResult (describedLanguage info)
    Action.say ""
    Action.show .out (.panel ("🔧 " ++ info.displayName ++ " Generator") description)
    Action.say ""
    Action.show .out (.panel "💡 Usage Examples" (languageExamples info))
    pure 0

/-- Show every language, or the one that is named. -/
def runLanguages (around : Surroundings) (name : Option Text) : Action Nat :=
  match given? name with
  | some name => showLanguage around name
  | none => listLanguages around

end HttpWorkbench.CommandLine
