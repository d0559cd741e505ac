import HttpWorkbench.Export.Generator

/-!
# Python programs

A script with the headers as a table. A body with the shape of an object is read from its text
between triple quotes, any other is a string.
-/

namespace HttpWorkbench.Export.Python

/-- The program. -/
def template : Template := [
  .choice (.holds "json_body") [.lines ["import json", ""]] [],
  .lines ["import requests", ""],
  .choice (.holds "headers")
    [.text "headers = \x7b\n",
      .eachHeader [
        .text "    \"", .headerPart .key, .text "\": \"", .headerPart .value, .text "\",\n"],
      .text "\x7d\n"]
    [.text "headers = \x7b\x7d\n"],
  .lines [""],
  .choice (.given "body")
    [.choice (.holds "json_body")
        [.text "data = json.loads('''", .quoted "body" (.backslash '\x27'), .text "''')\n"]
        [.text "data = \"", .quoted "body" (.backslash '"'), .text "\"\n"],
      .text "\nresponse = requests.", .word (.name "call"),
      .text "(\"", .quoted "url" (.backslash '"'), .text "\", headers=headers, ",
      .word (.name "body_keyword"), .text "=data)\n"]
    [.text "response = requests.", .word (.name "call"),
      .text "(\"", .quoted "url" (.backslash '"'), .text "\", headers=headers)\n"],
  .lines ["", "# Print response", "print(response.status_code)"],
  .text "print(response.json())"]

/-- The generator of Python programs. -/
def generator : Generator where
  className := "PythonGenerator"
  moduleName := "request_explorer.codegen.languages.python.generator"
  languageName := "python"
  displayName := "Python (requests)"
  fileExtension := ".py"
  syntaxName := "python"
  file := some {
    directory := "<src>/request_explorer/codegen/languages/python/templates"
    name := "requests.py.j2"
    template }
  extend d parts := do
    let call ← d.method.lowered
    .ok [("call", call), ("body_keyword", .str (if parts.isJson then "json" else "data"))]

end HttpWorkbench.Export.Python
