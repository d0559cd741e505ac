import HttpWorkbench.Proofs.Export.Standard

/-!
# C# programs

The program that is written for a request made of texts, part by part.
-/

namespace HttpWorkbench.Export.CSharp

/-- The line that adds a header. -/
def headerLine (h : Text × Text) : Text :=
  "        client.DefaultRequestHeaders.Add(\"" ++ ((Escape.backslash '"').apply h.1 ++ ("\", \"" ++
    ((Escape.backslash '"').apply h.2 ++ "\");\n")))

/-- The lines that add the headers, with an empty line behind them. -/
def headerLines (headers : List (Text × Text)) : Text :=
  headers.flatMap headerLine ++ if headers = [] then ("" : Text) else "\n"

/-- The name of the client's method for a request method. -/
def clientMethodName (method : Text) : Text := method.take 1 ++ Text.lower (method.drop 1)

/-- The type that the headers name for the body: the value of the first header for it, case
aside. -/
def declaredType (headers : List (Text × Text)) : Option Text :=
  (headers.find? fun h => Text.lower h.1 == ("content-type" : Text)).map Prod.snd

/-- The type of the body. -/
def bodyType (headers : List (Text × Text)) : Text := (declaredType headers).getD defaultContentType

/-- The lines that make the content from a body. -/
def contentLines (body type : Text) : Text :=
  "        var content = new StringContent(\n" ++ ("            @\"" ++
    (Escape.doubled.apply body ++ ("\",\n" ++ ("            Encoding.UTF8,\n" ++
      ("            \"" ++ ((Escape.backslash '"').apply type ++ ("\"\n" ++ "        );\n\n")))))))

/-- The line that sends the request, where `closing` stands behind the url. -/
def callLine (r : TextRequest) (closing : Text) : Text :=
  "        var response = await client." ++ (clientMethodName r.method ++ ("Async(\"" ++
    ((Escape.backslash '"').apply r.url ++ closing)))

/-- The lines that send the request, with its body if it has one. -/
def sendLines (r : TextRequest) : Text :=
  match r.sentBody with
  | some body => contentLines body (bodyType r.headers) ++ callLine r "\", content);\n"
  | none => callLine r "\");\n"

/-- The lines up to the headers. -/
def openingLines : List Text :=
  ["using System;", "using System.Net.Http;", "using System.Text;",
    "using System.Threading.Tasks;", "", "class Program", "\x7b", "    static async Task Main()",
    "    \x7b", "        using var client = new HttpClient();", ""]

/-- The lines that show the response. -/
def endingLines : List Text :=
  ["", "        var responseContent = await response.Content.ReadAsStringAsync();",
    "        Console.WriteLine(responseContent);", "    \x7d"]

/-- What stands in front of the headers. -/
def opening : Text := openingLines.flatMap fun line => line ++ ("\n" : Text)

/-- What stands behind the request. -/
def ending : Text := endingLines.flatMap (fun line => line ++ ("\n" : Text)) ++ ("\x7d" : Text)

/-- The program for a request. -/
def program (r : TextRequest) : Text :=
  opening ++ (headerLines r.usable ++ (sendLines r ++ ending))

/-- What the program is filled from beside the parts of the request. -/
def extras (r : TextRequest) : List (Text × Value) :=
  [("client_method", .str (clientMethodName r.method)), ("content_type", .str (bodyType r.headers))]

/-- The type is looked for in the order of the headers. -/
theorem contentType_map (headers : List (Text × Text)) :
    contentType (headers.map TextRequest.header) = .ok (.ofText? (declaredType headers)) := by
  induction headers with
  | nil => rfl
  | cons h headers ih =>
    rw [List.map_cons, contentType, declaredType, List.find?_cons]
    change (if (Value.str (Text.lower h.1) == .str "content-type") = true then _ else _) = _
    have hsame : (Value.str (Text.lower h.1) == .str "content-type") =
        (Text.lower h.1 == ("content-type" : Text)) := rfl
    rw [hsame]
    cases Text.lower h.1 == ("content-type" : Text) with
    | true => rfl
    | false => exact ih

/-- The language adds the method's name and the type of the body. -/
theorem extend_descriptor (r : TextRequest) (parts : SentParts) :
    generator.extend r.descriptor parts = .ok (extras r) := by
  have htype := contentType_map r.headers
  change (contentType (r.headers.map TextRequest.header) >>= _) = _
  rw [htype, ok_bind, extras, bodyType]
  cases declaredType r.headers <;> rfl

/-- The request is sent with its body, if one is sent. -/
theorem render_sendLines (r : TextRequest) :
    (Piece.choice (.given "body")
      [.lines ["        var content = new StringContent("],
        .text "            @\"", .quoted "body" .doubled, .text "\",\n",
        .lines ["            Encoding.UTF8,"],
        .text "            \"", .quoted "content_type" (.backslash '"'), .text "\"\n",
        .lines ["        );", ""],
        .text "        var response = await client.", .word (.name "client_method"),
        .text "Async(\"", .quoted "url" (.backslash '"'), .text "\", content);\n"]
      [.text "        var response = await client.", .word (.name "client_method"),
        .text "Async(\"", .quoted "url" (.backslash '"'), .text "\");\n"]).render
        (r.context (extras r)) = .ok (sendLines r) := by
  have hmethod : (r.context (extras r)).lookup "client_method" =
      .ok (.str (clientMethodName r.method)) := rfl
  have htype : (r.context (extras r)).lookup "content_type" =
      .ok (.str (bodyType r.headers)) := rfl
  have hcontent (context : Context) :
      (Piece.lines ["        var content = new StringContent("]).render context =
        .ok "        var content = new StringContent(\n" := rfl
  have hencoding (context : Context) : (Piece.lines ["            Encoding.UTF8,"]).render context =
      .ok "            Encoding.UTF8,\n" := rfl
  have hclosing (context : Context) :
      (Piece.lines ["        );", ""]).render context = .ok "        );\n\n" := rfl
  rw [r.render_choice_body, sendLines]
  cases hbody : r.sentBody with
  | none =>
    simp only [Option.isSome_none, Bool.false_eq_true, if_false, renderAll,
      TextRequest.render_text, TextRequest.render_word hmethod,
      TextRequest.render_quoted _ (r.lookup_url _), ok_bind, List.append_nil, callLine]
  | some body =>
    have hlookup := r.lookup_body_of_some (extras r) hbody
    simp only [Option.isSome_some, if_true, renderAll, TextRequest.render_text, hcontent,
      hencoding, hclosing, TextRequest.render_word hmethod, TextRequest.render_quoted _ hlookup,
      TextRequest.render_quoted _ htype, TextRequest.render_quoted _ (r.lookup_url _), ok_bind,
      List.append_nil, contentLines, callLine, List.append_assoc]

/-- The template writes the program. -/
theorem render_template (r : TextRequest) :
    template.render (r.context (extras r)) = .ok (program r) := by
  have hopening (context : Context) : (Piece.lines openingLines).render context = .ok opening := rfl
  have hline (h : Text × Text) (last : Bool) :
      renderAll ((r.context (extras r)).atItem "header" (TextRequest.header h).toValue last)
        [.text "        client.DefaultRequestHeaders.Add(\"", .headerPart .key, .text "\", \"",
          .headerPart .value, .text "\");\n"] = .ok (headerLine h) :=
    TextRequest.renderAll_header _ h last _ _ _
  have hbehind : (Piece.choice (.holds "headers") [.lines [""]] []).render
      (r.context (extras r)) = .ok (if r.usable = [] then ("" : Text) else "\n") := by
    rw [r.render_choice_headers]
    split <;> rfl
  have hending (context : Context) : (Piece.lines endingLines).render context =
      .ok (endingLines.flatMap fun line => line ++ ("\n" : Text)) := rfl
  rw [openingLines] at hopening
  rw [endingLines] at hending
  rw [template, Template.render]
  simp only [renderAll, hopening, r.render_eachHeader _ hline, hbehind, render_sendLines, hending,
    ok_bind, TextRequest.render_text, List.append_nil, program, headerLines, ending, endingLines,
    List.append_assoc]

/-- The exported program is what the template writes. -/
theorem render_program (r : TextRequest) :
    render .standard r.descriptor (.str "csharp") = .ok (program r) :=
  render_standard_of_template .csharp r rfl (extend_descriptor r r.parts) (render_template r)

end HttpWorkbench.Export.CSharp
