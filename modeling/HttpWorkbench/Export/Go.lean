import HttpWorkbench.Export.Generator

/-!
# Go programs

A main package. The body is a raw string, with its backticks spliced in as quoted strings.
-/

namespace HttpWorkbench.Export.Go

/-- The line that makes the request; the last argument is what the body is read from. -/
def newRequest (reader : Text) : List Piece := [
  .text "    req, err := http.NewRequest(\"", .quoted "method" (.backslash '"'),
  .text "\", \"", .quoted "url" (.backslash '"'),
  .text ("\", " ++ reader ++ ")\n")]

/-- The program. -/
def template : Template := [
  .lines ["package main", "", "import (", "    \"fmt\"", "    \"io\"", "    \"net/http\""],
  .choice (.given "body") [.lines ["    \"strings\""]] [],
  .lines [")", "", "func main() \x7b"],
  .choice (.given "body")
    (.text "    payload := strings.NewReader(\x60" :: .quoted "body" .raw ::
      .text "\x60)\n\n" :: newRequest "payload")
    (newRequest "nil"),
  .lines ["    if err != nil \x7b", "        fmt.Println(\"Error creating request:\", err)",
    "        return", "    \x7d", ""],
  .eachHeader [
    .text "    req.Header.Add(\"", .headerPart .key, .text "\", \"", .headerPart .value,
    .text "\")\n"],
  .choice (.holds "headers") [.lines [""]] [],
  .lines ["    client := &http.Client\x7b\x7d", "    resp, err := client.Do(req)",
    "    if err != nil \x7b", "        fmt.Println(\"Error sending request:\", err)",
    "        return", "    \x7d", "    defer resp.Body.Close()", "",
    "    body, err := io.ReadAll(resp.Body)", "    if err != nil \x7b",
    "        fmt.Println(\"Error reading response:\", err)", "        return", "    \x7d", "",
    "    fmt.Println(\"Status:\", resp.Status)",
    "    fmt.Println(\"Response:\", string(body))"],
  .text "\x7d"]

/-- The generator of Go programs. -/
def generator : Generator where
  className := "GoGenerator"
  moduleName := "request_explorer.codegen.languages.go.generator"
  languageName := "go"
  displayName := "Go (net/http)"
  fileExtension := ".go"
  syntaxName := "go"
  file := some {
    directory := "<src>/request_explorer/codegen/languages/go/templates"
    name := "main.go.j2"
    template }
  extend _ _ := .ok []

end HttpWorkbench.Export.Go
