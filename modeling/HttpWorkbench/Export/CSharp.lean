import HttpWorkbench.Export.Generator

/-!
# C# programs

A console program. The body is a verbatim string, sent with the type that the first content type
header names, usable or not.
-/

namespace HttpWorkbench.Export.CSharp

/-- The type of a body when no header names one. -/
def defaultContentType : Text := "application/json"

/-- The program. -/
def template : Template := [
  .lines ["using System;", "using System.Net.Http;", "using System.Text;",
    "using System.Threading.Tasks;", "", "class Program", "\x7b", "    static async Task Main()",
    "    \x7b", "        using var client = new HttpClient();", ""],
  .eachHeader [
    .text "        client.DefaultRequestHeaders.Add(\"", .headerPart .key, .text "\", \"",
    .headerPart .value, .text "\");\n"],
  .choice (.holds "headers") [.lines [""]] [],
  .choice (.given "body")
    [.lines ["        var content = new StringContent("],
      .text "            @\"", .quoted "body" .doubled, .text "\",\n",
      .lines ["            Encoding.UTF8,"],
      .text "            \"", .quoted "content_type" (.backslash '"'), .text "\"\n",
      .lines ["        );", ""],
      .text "        var response = await client.", .word (.name "client_method"),
      .text "Async(\"", .quoted "url" (.backslash '"'), .text "\", content);\n"]
    [.text "        var response = await client.", .word (.name "client_method"),
      .text "Async(\"", .quoted "url" (.backslash '"'), .text "\");\n"],
  .lines ["", "        var responseContent = await response.Content.ReadAsStringAsync();",
    "        Console.WriteLine(responseContent);", "    \x7d"],
  .text "\x7d"]

/-- The generator of C# programs. -/
def generator : Generator where
  className := "CSharpGenerator"
  moduleName := "request_explorer.codegen.languages.csharp.generator"
  languageName := "csharp"
  displayName := "C# (HttpClient)"
  fileExtension := ".cs"
  syntaxName := "csharp"
  file := some {
    directory := "<src>/request_explorer/codegen/languages/csharp/templates"
    name := "Program.cs.j2"
    template }
  extend d _ := do
    let method ← clientMethod d.method
    let found ← contentType d.headers
    let type : Value :=
      match found with
      | .null => .str defaultContentType
      | v => v
    .ok [("client_method", method), ("content_type", type)]

end HttpWorkbench.Export.CSharp
