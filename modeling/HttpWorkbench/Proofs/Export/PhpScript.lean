import HttpWorkbench.Proofs.Export.Standard

/-!
# PHP scripts

The script that is written for a request made of texts, part by part.
-/

namespace HttpWorkbench.Export.Php

/-- The line of a header in the row of headers. -/
def headerLine (h : Text × Text) : Text :=
  "        \"" ++ ((Escape.backslash '"').apply h.1 ++ (": " ++
    ((Escape.backslash '"').apply h.2 ++ "\",\n")))

/-- The option with the headers. -/
def headerOption (headers : List (Text × Text)) : Text :=
  if headers = [] then ""
  else "    CURLOPT_HTTPHEADER => [\n" ++ (headers.flatMap headerLine ++ "    ],\n")

/-- The option with the body. -/
def bodyOption : Option Text → Text
  | none => ""
  | some body =>
    "    CURLOPT_POSTFIELDS => '" ++ ((Escape.backslash '\x27').apply body ++ "',\n")

/-- The lines up to the url. -/
def opening : Text := "<?php\n\n$curl = curl_init();\n\ncurl_setopt_array($curl, [\n"

/-- The lines behind the options. -/
def endingLines : List Text :=
  ["]);", "", "$response = curl_exec($curl);", "$error = curl_error($curl);", "",
    "curl_close($curl);", "", "if ($error) \x7b", "    echo \"cURL Error: \" . $error;",
    "\x7d else \x7b", "    echo $response;"]

/-- What stands behind the options. -/
def ending : Text := endingLines.flatMap (fun line => line ++ ("\n" : Text)) ++ ("\x7d" : Text)

/-- The options that every request has. -/
def fixedOptions (r : TextRequest) : Text :=
  "    CURLOPT_URL => \"" ++ ((Escape.backslash '"').apply r.url ++ ("\",\n" ++
    ("    CURLOPT_RETURNTRANSFER => true,\n" ++ ("    CURLOPT_CUSTOMREQUEST => \"" ++
      ((Escape.backslash '"').apply r.method ++ "\",\n")))))

/-- The script for a request. -/
def script (r : TextRequest) : Text :=
  opening ++ (fixedOptions r ++ (headerOption r.usable ++ (bodyOption r.sentBody ++ ending)))

/-- The option with the headers is written for the headers that are sent, if there are any. -/
theorem render_headerOption (r : TextRequest) (more : List (Text × Value)) :
    (Piece.choice (.holds "headers")
      [.lines ["    CURLOPT_HTTPHEADER => ["],
        .eachHeader [
          .text "        \"", .headerPart .key, .text ": ", .headerPart .value, .text "\",\n"],
        .lines ["    ],"]]
      []).render (r.context more) = .ok (headerOption r.usable) := by
  have hline (h : Text × Text) (last : Bool) :
      renderAll ((r.context more).atItem "header" (TextRequest.header h).toValue last)
        [.text "        \"", .headerPart .key, .text ": ", .headerPart .value, .text "\",\n"] =
          .ok (headerLine h) := TextRequest.renderAll_header _ h last _ _ _
  have hfirst (context : Context) : (Piece.lines ["    CURLOPT_HTTPHEADER => ["]).render context =
      .ok "    CURLOPT_HTTPHEADER => [\n" := rfl
  have hlast (context : Context) :
      (Piece.lines ["    ],"]).render context = .ok "    ],\n" := rfl
  rw [r.render_choice_headers, headerOption]
  split
  · rfl
  · simp only [renderAll, hfirst, hlast, r.render_eachHeader more hline, ok_bind, List.append_nil]

/-- The option with the body is written if a body is sent. -/
theorem render_bodyOption (r : TextRequest) (more : List (Text × Value)) :
    (Piece.choice (.given "body")
      [.text "    CURLOPT_POSTFIELDS => '", .quoted "body" (.backslash '\x27'), .text "',\n"]
      []).render (r.context more) = .ok (bodyOption r.sentBody) := by
  rw [r.render_choice_body]
  cases hbody : r.sentBody with
  | none => rfl
  | some body =>
    have hlookup := r.lookup_body_of_some more hbody
    simp only [Option.isSome_some, if_true, renderAll, TextRequest.render_text,
      TextRequest.render_quoted _ hlookup, ok_bind, List.append_nil, bodyOption]

/-- The template writes the script. -/
theorem render_template (r : TextRequest) : template.render (r.context []) = .ok (script r) := by
  have hopening (context : Context) :
      (Piece.lines ["<?php", "", "$curl = curl_init();", "", "curl_setopt_array($curl, ["]).render
        context = .ok opening := rfl
  have htransfer (context : Context) :
      (Piece.lines ["    CURLOPT_RETURNTRANSFER => true,"]).render context =
        .ok "    CURLOPT_RETURNTRANSFER => true,\n" := rfl
  have hending (context : Context) : (Piece.lines endingLines).render context =
      .ok (endingLines.flatMap fun line => line ++ ("\n" : Text)) := rfl
  rw [endingLines] at hending
  rw [template, Template.render]
  simp only [renderAll, hopening, htransfer, hending, render_headerOption, render_bodyOption,
    ok_bind, TextRequest.render_text, List.append_nil, TextRequest.render_quoted _ (r.lookup_url _),
    TextRequest.render_quoted _ (r.lookup_method _), script, fixedOptions, ending, endingLines,
    List.append_assoc]

/-- The exported program is the script. -/
theorem render_script (r : TextRequest) :
    render .standard r.descriptor (.str "php") = .ok (script r) :=
  render_standard_of_template .php r rfl rfl (render_template r)

end HttpWorkbench.Export.Php
