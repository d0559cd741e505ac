import HttpWorkbench.Export.Generator

/-!
# Shell commands

A command line with the url between double quotes, one continuation line for each header, and
the body as a single-quoted word.
-/

namespace HttpWorkbench.Export.Curl

/-- The command. -/
def template : Template := [
  .text "curl -X ", .word (.name "method"),
  .text " \"", .quoted "url" (.backslash '"'), .text "\"",
  .eachHeader [
    .text " \\\n  -H \"", .headerPart .key, .text ": ", .headerPart .value, .text "\""],
  .choice (.given "body")
    [.text " \\\n  -d '", .quoted "body" .shell, .text "'"]
    []]

/-- The generator of shell commands. -/
def generator : Generator where
  className := "CurlGenerator"
  moduleName := "request_explorer.codegen.languages.curl.generator"
  languageName := "curl"
  displayName := "cURL"
  fileExtension := ".sh"
  syntaxName := "bash"
  file := some {
    directory := "<src>/request_explorer/codegen/languages/curl/templates"
    name := "command.sh.j2"
    template }
  extend _ _ := .ok []

end HttpWorkbench.Export.Curl
