import HttpWorkbench.Proofs.Export.Standard

/-!
# Go programs

The program that is written for a request made of texts, part by part.
-/

namespace HttpWorkbench.Export.Go

/-- The line that adds a header. -/
def headerLine (h : Text × Text) : Text :=
  "    req.Header.Add(\"" ++ ((Escape.backslash '"').apply h.1 ++ ("\", \"" ++
    ((Escape.backslash '"').apply h.2 ++ "\")\n")))

/-- The lines that add the headers, with an empty line behind them. -/
def headerLines (headers : List (Text × Text)) : Text :=
  headers.flatMap headerLine ++ if headers = [] then ("" : Text) else "\n"

/-- The import that a body needs. -/
def bodyImport (body : Option Text) : Text :=
  if body.isSome then ("    \"strings\"\n" : Text) else ""

/-- The line that makes the request. -/
def requestLine (r : TextRequest) (reader : Text) : Text :=
  "    req, err := http.NewRequest(\"" ++ ((Escape.backslash '"').apply r.method ++ ("\", \"" ++
    ((Escape.backslash '"').apply r.url ++ ("\", " ++ reader ++ ")\n"))))

/-- The lines that make the request, from its body if it has one. -/
def requestLines (r : TextRequest) : Text :=
  match r.sentBody with
  | some body =>
    "    payload := strings.NewReader(\x60" ++ (Escape.raw.apply body ++ ("\x60)\n\n" ++
      requestLine r "payload"))
  | none => requestLine r "nil"

/-- The lines up to the imports that depend on the body. -/
def opening : Text := "package main\n\nimport (\n    \"fmt\"\n    \"io\"\n    \"net/http\"\n"

/-- The lines between the imports and the request. -/
def mainLine : Text := ")\n\nfunc main() \x7b\n"

/-- The lines that follow the making of the request. -/
def checkLines : List Text :=
  ["    if err != nil \x7b", "        fmt.Println(\"Error creating request:\", err)",
    "        return", "    \x7d", ""]

/-- The lines that send the request and show the response. -/
def endingLines : List Text :=
  ["    client := &http.Client\x7b\x7d", "    resp, err := client.Do(req)",
    "    if err != nil \x7b", "        fmt.Println(\"Error sending request:\", err)",
    "        return", "    \x7d", "    defer resp.Body.Close()", "",
    "    body, err := io.ReadAll(resp.Body)", "    if err != nil \x7b",
    "        fmt.Println(\"Error reading response:\", err)", "        return", "    \x7d", "",
    "    fmt.Println(\"Status:\", resp.Status)",
    "    fmt.Println(\"Response:\", string(body))"]

/-- What stands behind the headers. -/
def ending : Text := endingLines.flatMap (fun line => line ++ ("\n" : Text)) ++ ("\x7d" : Text)

/-- The program for a request. -/
def program (r : TextRequest) : Text :=
  opening ++ (bodyImport r.sentBody ++ (mainLine ++ (requestLines r ++
    (checkLines.flatMap (fun line => line ++ ("\n" : Text)) ++ (headerLines r.usable ++ ending)))))

theorem render_newRequest (r : TextRequest) (more : List (Text × Value)) (reader : Text) :
    renderAll (r.context more) (newRequest reader) = .ok (requestLine r reader) := by
  simp only [newRequest, renderAll, TextRequest.render_text, ok_bind, List.append_nil,
    TextRequest.render_quoted _ (r.lookup_method _), TextRequest.render_quoted _ (r.lookup_url _),
    requestLine]

/-- The request is made from its body, if one is sent. -/
theorem render_requestLines (r : TextRequest) (more : List (Text × Value)) :
    (Piece.choice (.given "body")
      (.text "    payload := strings.NewReader(\x60" :: .quoted "body" .raw ::
        .text "\x60)\n\n" :: newRequest "payload")
      (newRequest "nil")).render (r.context more) = .ok (requestLines r) := by
  rw [r.render_choice_body, requestLines]
  cases hbody : r.sentBody with
  | none => exact render_newRequest r more "nil"
  | some body =>
    have hlookup := r.lookup_body_of_some more hbody
    simp only [Option.isSome_some, if_true, renderAll, TextRequest.render_text,
      TextRequest.render_quoted _ hlookup, render_newRequest, ok_bind]

/-- The template writes the program. -/
theorem render_template (r : TextRequest) : template.render (r.context []) = .ok (program r) := by
  have hopening (context : Context) : (Piece.lines ["package main", "", "import (", "    \"fmt\"",
      "    \"io\"", "    \"net/http\""]).render context = .ok opening := rfl
  have himport : (Piece.choice (.given "body") [.lines ["    \"strings\""]] []).render
      (r.context []) = .ok (bodyImport r.sentBody) := by
    rw [r.render_choice_body, bodyImport]
    split <;> rfl
  have hmain (context : Context) :
      (Piece.lines [")", "", "func main() \x7b"]).render context = .ok mainLine := rfl
  have hcheck (context : Context) : (Piece.lines checkLines).render context =
      .ok (checkLines.flatMap fun line => line ++ ("\n" : Text)) := rfl
  have hline (h : Text × Text) (last : Bool) :
      renderAll ((r.context []).atItem "header" (TextRequest.header h).toValue last)
        [.text "    req.Header.Add(\"", .headerPart .key, .text "\", \"", .headerPart .value,
          .text "\")\n"] = .ok (headerLine h) := TextRequest.renderAll_header _ h last _ _ _
  have hbehind : (Piece.choice (.holds "headers") [.lines [""]] []).render (r.context []) =
      .ok (if r.usable = [] then "" else "\n") := by
    rw [r.render_choice_headers]
    split <;> rfl
  have hending (context : Context) : (Piece.lines endingLines).render context =
      .ok (endingLines.flatMap fun line => line ++ ("\n" : Text)) := rfl
  rw [checkLines] at hcheck
  rw [endingLines] at hending
  rw [template, Template.render]
  simp only [renderAll, hopening, himport, hmain, render_requestLines, hcheck,
    r.render_eachHeader [] hline, hbehind, hending, ok_bind, TextRequest.render_text,
    List.append_nil, program, headerLines, checkLines, ending, endingLines, List.append_assoc]

/-- The exported program is what the template writes. -/
theorem render_program (r : TextRequest) :
    render .standard r.descriptor (.str "go") = .ok (program r) :=
  render_standard_of_template .go r rfl rfl (render_template r)

end HttpWorkbench.Export.Go
