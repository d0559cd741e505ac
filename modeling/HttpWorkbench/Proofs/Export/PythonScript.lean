import HttpWorkbench.Proofs.Export.Standard

/-!
# Python scripts

The script that is written for a request made of texts, part by part.
-/

namespace HttpWorkbench.Export.Python

open TextRequest (opensObject)

/-- The line of a header in the table of headers. -/
def headerLine (h : Text × Text) : Text :=
  "    \"" ++ ((Escape.backslash '"').apply h.1 ++ ("\": \"" ++
    ((Escape.backslash '"').apply h.2 ++ "\",\n")))

/-- The table of headers. -/
def headerTable (headers : List (Text × Text)) : Text :=
  if headers = [] then "headers = \x7b\x7d\n"
  else "headers = \x7b\n" ++ (headers.flatMap headerLine ++ "\x7d\n")

/-- The line with the body. -/
def bodyLine (body : Text) : Text :=
  if opensObject body then
    "data = json.loads('''" ++ ((Escape.backslash '\x27').apply body ++ "''')\n")
  else "data = \"" ++ ((Escape.backslash '"').apply body ++ "\"\n")

/-- The name under which the body is handed over. -/
def bodyKeyword (body : Option Text) : Text := if body.any opensObject then "json" else "data"

/-- The call that sends the request, and the body before it. -/
def sendLines (r : TextRequest) : Text :=
  match r.sentBody with
  | some body =>
    bodyLine body ++ ("\nresponse = requests." ++ (Text.lower r.method ++ ("(\"" ++
      ((Escape.backslash '"').apply r.url ++ ("\", headers=headers, " ++
        (bodyKeyword r.sentBody ++ "=data)\n"))))))
  | none =>
    "response = requests." ++ (Text.lower r.method ++ ("(\"" ++
      ((Escape.backslash '"').apply r.url ++ "\", headers=headers)\n")))

/-- What is imported. -/
def imports (body : Option Text) : Text :=
  (if body.any opensObject then ("import json\n\n" : Text) else "") ++ "import requests\n\n"

/-- What is done with the response. -/
def ending : Text :=
  "\n# Print response\nprint(response.status_code)\n" ++ "print(response.json())"

/-- The script for a request. -/
def script (r : TextRequest) : Text :=
  imports r.sentBody ++ (headerTable r.usable ++ ("\n" ++ (sendLines r ++ ending)))

/-- What the script is filled from beside the parts of the request. -/
def extras (r : TextRequest) : List (Text × Value) :=
  [("call", .str (Text.lower r.method)), ("body_keyword", .str (bodyKeyword r.sentBody))]

/-- The table of headers is written for the headers that are sent. -/
theorem render_headerTable (r : TextRequest) (more : List (Text × Value)) :
    (Piece.choice (.holds "headers")
      [.text "headers = \x7b\n",
        .eachHeader [
          .text "    \"", .headerPart .key, .text "\": \"", .headerPart .value, .text "\",\n"],
        .text "\x7d\n"]
      [.text "headers = \x7b\x7d\n"]).render (r.context more) = .ok (headerTable r.usable) := by
  have hline (h : Text × Text) (last : Bool) :
      renderAll ((r.context more).atItem "header" (TextRequest.header h).toValue last)
        [.text "    \"", .headerPart .key, .text "\": \"", .headerPart .value, .text "\",\n"] =
          .ok (headerLine h) := TextRequest.renderAll_header _ h last _ _ _
  rw [r.render_choice_headers, headerTable]
  split
  · rfl
  · simp only [renderAll, TextRequest.render_text, r.render_eachHeader more hline, ok_bind,
      List.append_nil]

/-- The body is written as a document or as a string. -/
theorem render_bodyLine {r : TextRequest} {body : Text} (hbody : r.sentBody = some body)
    (more : List (Text × Value)) :
    (Piece.choice (.holds "json_body")
      [.text "data = json.loads('''", .quoted "body" (.backslash '\x27'), .text "''')\n"]
      [.text "data = \"", .quoted "body" (.backslash '"'), .text "\"\n"]).render
        (r.context more) = .ok (bodyLine body) := by
  have hlookup := r.lookup_body_of_some more hbody
  rw [r.render_choice_json, hbody, Option.any_some, bodyLine]
  split
  · simp only [renderAll, TextRequest.render_text, TextRequest.render_quoted _ hlookup, ok_bind,
      List.append_nil]
  · simp only [renderAll, TextRequest.render_text, TextRequest.render_quoted _ hlookup, ok_bind,
      List.append_nil]

/-- The template writes the script. -/
theorem render_template (r : TextRequest) :
    template.render (r.context (extras r)) = .ok (script r) := by
  have hcall : (r.context (extras r)).lookup "call" = .ok (.str (Text.lower r.method)) := rfl
  have hkeyword : (r.context (extras r)).lookup "body_keyword" =
      .ok (.str (bodyKeyword r.sentBody)) := rfl
  have himports : (Piece.choice (.holds "json_body") [.lines ["import json", ""]] []).render
      (r.context (extras r)) =
        .ok (if r.sentBody.any opensObject then "import json\n\n" else "") := by
    rw [r.render_choice_json]
    split <;> rfl
  have hrequests (context : Context) :
      (Piece.lines ["import requests", ""]).render context = .ok "import requests\n\n" := rfl
  have hblank (context : Context) : (Piece.lines [""]).render context = .ok "\n" := rfl
  have hresponse (context : Context) :
      (Piece.lines ["", "# Print response", "print(response.status_code)"]).render context =
        .ok "\n# Print response\nprint(response.status_code)\n" := rfl
  rw [template, Template.render]
  simp only [renderAll, himports, hrequests, hblank, hresponse, render_headerTable, ok_bind,
    TextRequest.render_text, List.append_nil, r.render_choice_body,
    TextRequest.render_word hcall, TextRequest.render_word hkeyword,
    TextRequest.render_quoted _ (r.lookup_url _)]
  cases hbody : r.sentBody with
  | none =>
    simp only [script, sendLines, hbody, imports, ending, Option.isSome_none, Bool.false_eq_true,
      if_false, ok_bind, List.append_assoc]
  | some body =>
    simp only [script, sendLines, hbody, imports, ending, Option.isSome_some, if_true, ok_bind,
      render_bodyLine hbody, List.append_assoc]

/-- The exported program is the script. -/
theorem render_script (r : TextRequest) :
    render .standard r.descriptor (.str "python") = .ok (script r) :=
  render_standard_of_template .python r rfl rfl (render_template r)

end HttpWorkbench.Export.Python
