import HttpWorkbench.Export.Generator

/-!
# Programs for browsers

A call with an object of options. The options are the method, the headers if there are any and
the body if there is one, each ending in a comma except the last. A body with the shape of an
object is written as it is, any other as a string.
-/

namespace HttpWorkbench.Export.JavaScript

/-- A text between double quotes. -/
def literal (v : Value) : Result Text := do
  let s ← ((Escape.backslash '"').applyTo v).mapError .misuse
  .ok ("\"" ++ s ++ "\"")

/-- The option with the headers. -/
def headersOption (headers : List Header) : Result Text := do
  let lines ← headers.mapM fun h => do
    let key ← literal h.key
    let value ← literal h.value
    .ok ("    " ++ key ++ ": " ++ value)
  .ok ("  headers: \x7b\n" ++ Text.join ",\n" lines ++ "\n  \x7d")

/-- The option with the body. -/
def bodyOption (body : Value) (isJson : Bool) : Result Text :=
  if isJson then .ok ("  body: " ++ body.text)
  else do
    let s ← literal body
    .ok ("  body: " ++ s)

/-- The options of a call, none of them empty. -/
def options (parts : SentParts) : Result (List Text) := do
  let method ← literal parts.method
  let headers ← if parts.headers.isEmpty then .ok [] else (headersOption parts.headers).map ([·])
  let body ←
    match parts.body with
    | .null => .ok []
    | body => (bodyOption body parts.isJson).map ([·])
  .ok (("  method: " ++ method) :: (headers ++ body))

/-- The program. -/
def template : Template := [
  .text "const options = \x7b\n",
  .each "entry" "options" [.word (.name "entry"), .comma, .text "\n"],
  .text "\x7d;\n\nfetch(\"", .quoted "url" (.backslash '"'),
  .text "\", options)\n",
  .lines [
    "  .then(response => response.json())",
    "  .then(data => console.log(data))"],
  .text "  .catch(error => console.error(error));"]

/-- The generator of programs for browsers. -/
def generator : Generator where
  className := "JavaScriptGenerator"
  moduleName := "request_explorer.codegen.languages.javascript.generator"
  languageName := "javascript"
  displayName := "JavaScript (fetch)"
  fileExtension := ".js"
  syntaxName := "javascript"
  file := some {
    directory := "<src>/request_explorer/codegen/languages/javascript/templates"
    name := "fetch.js.j2"
    template }
  extend _ parts := do
    let entries ← options parts
    .ok [("options", .ofTexts entries)]

end HttpWorkbench.Export.JavaScript
