import HttpWorkbench.CommandLine.Command

/-!
# Usage

What the program and its commands take, in one line each.
-/

namespace HttpWorkbench.CommandLine

/-- An option as usage shows it: its names, and a place for its argument. -/
def OptionSpec.usage (spec : OptionSpec) : Text :=
  "[" ++ Text.join " | " spec.names ++
    (if spec.takesArgument then " " ++ Text.upper spec.key else "") ++ "]"

/-- What may stand beside the options, as usage shows it. -/
def Positional.usage : Positional → List Text
  | .nothing => []
  | .one key => ["[" ++ key ++ "]"]
  | .command names => [Text.join " | " names, "..."]

/-- One line on what a command of this name takes. -/
def Grammar.usage (g : Grammar) (name : Text) : Text :=
  Text.join " " (name :: g.options.map OptionSpec.usage ++ g.positional.usage)

/-- The name of the program. -/
def programName : Text := "request-explorer"

/-- What the program and each of its commands take. -/
def usage : Text :=
  Text.join "\n" ("usage:" :: programGrammar.usage programName ::
    commands.map fun (name, grammar, _) => grammar.usage (programName ++ " " ++ name))

end HttpWorkbench.CommandLine
