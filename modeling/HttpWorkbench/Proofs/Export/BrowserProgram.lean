import HttpWorkbench.Proofs.Export.Standard

/-!
# Programs for browsers

The program that is written for a request made of texts, option by option.
-/

namespace HttpWorkbench.Export.JavaScript

open TextRequest (opensObject)

/-- A text between double quotes. -/
def literalText (s : Text) : Text := "\"" ++ (Escape.backslash '"').apply s ++ "\""

/-- The entry of a header in the option with the headers. -/
def headerEntry (h : Text × Text) : Text :=
  "    " ++ literalText h.1 ++ ": " ++ literalText h.2

/-- The option with the headers, if there are any. -/
def headersEntry (headers : List (Text × Text)) : List Text :=
  if headers = [] then []
  else ["  headers: \x7b\n" ++ Text.join ",\n" (headers.map headerEntry) ++ "\n  \x7d"]

/-- The option with the body, if there is one. -/
def bodyEntry : Option Text → List Text
  | none => []
  | some body => ["  body: " ++ if opensObject body then body else literalText body]

/-- The options of a request. -/
def optionEntries (r : TextRequest) : List Text :=
  ("  method: " ++ literalText r.method) :: (headersEntry r.usable ++ bodyEntry r.sentBody)

/-- The line of an option, with a comma unless it is the last. -/
def optionLine (entry : Text × Bool) : Text :=
  entry.1 ++ ((if entry.2 then [] else [.char ',']) ++ ("\n" : Text))

/-- The options on lines of their own. -/
def optionLines (entries : List Text) : Text := (markLast entries).flatMap optionLine

/-- The program for a request. -/
def program (r : TextRequest) : Text :=
  "const options = \x7b\n" ++ (optionLines (optionEntries r) ++ ("\x7d;\n\nfetch(\"" ++
    ((Escape.backslash '"').apply r.url ++ ("\", options)\n" ++
      ("  .then(response => response.json())\n  .then(data => console.log(data))\n" ++
        "  .catch(error => console.error(error));")))))

theorem literal_str (s : Text) : literal (.str s) = .ok (literalText s) := rfl

/-- The option with the headers has an entry for each of them. -/
theorem headersOption_map (headers : List (Text × Text)) :
    headersOption (headers.map TextRequest.header) =
      .ok ("  headers: \x7b\n" ++ Text.join ",\n" (headers.map headerEntry) ++ "\n  \x7d") := by
  have hentries : (headers.map TextRequest.header).mapM (fun h => do
      let key ← literal h.key
      let value ← literal h.value
      .ok ("    " ++ key ++ ": " ++ value)) = .ok (headers.map headerEntry) := by
    rw [List.mapM_map]
    exact mapM_eq_ok fun h _ => rfl
  rw [headersOption, hentries, ok_bind]

theorem bodyOption_str (body : Text) :
    bodyOption (.str body) (opensObject body) =
      .ok ("  body: " ++ if opensObject body then body else literalText body) := by
  cases hbody : opensObject body <;> rfl

/-- The options are made from what is sent. -/
theorem options_parts (r : TextRequest) : options r.parts = .ok (optionEntries r) := by
  have hparts : r.parts = ⟨.str r.method, .str r.url, r.usable.map TextRequest.header,
      .ofText? r.sentBody, r.sentBody.any opensObject⟩ := rfl
  rw [hparts, options, literal_str, ok_bind, headersOption_map, optionEntries]
  cases r.usable <;> cases r.sentBody with
  | none => rfl
  | some body =>
    simp only [Value.ofText?, Option.any_some, bodyOption_str]
    rfl

/-- The repetition over the options writes each on a line of its own. -/
theorem render_optionLines (r : TextRequest) (entries : List Text) :
    (Piece.each "entry" "options" [.word (.name "entry"), .comma, .text "\n"]).render
      (r.context [("options", .ofTexts entries)]) = .ok (optionLines entries) := by
  have hlookup : (r.context [("options", .ofTexts entries)]).lookup "options" =
      .ok (.list (entries.map .str)) := rfl
  have hentry (e : Text × Bool) :
      renderAll ((r.context [("options", .ofTexts entries)]).atItem "entry" (.str e.1) e.2)
        [.word (.name "entry"), .comma, .text "\n"] =
          .ok (optionLine e) := by
    have hword : ((r.context [("options", .ofTexts entries)]).atItem "entry" (.str e.1) e.2).lookup
        "entry" = .ok (.str e.1) := rfl
    have hcomma : Piece.comma.render
        ((r.context [("options", .ofTexts entries)]).atItem "entry" (.str e.1) e.2) =
          .ok (if e.2 then [] else [.char ',']) := rfl
    simp only [renderAll, TextRequest.render_word hword, hcomma, TextRequest.render_text, ok_bind,
      List.append_nil, optionLine]
  have hentries : (markLast (entries.map Value.str)).mapM
      (fun item => renderAll ((r.context [("options", .ofTexts entries)]).atItem "entry" item.1
        item.2) [.word (.name "entry"), .comma, .text "\n"]) =
        .ok ((markLast entries).map optionLine) := by
    rw [TextRequest.markLast_map, List.mapM_map]
    exact mapM_eq_ok fun e _ => hentry e
  rw [Piece.render, hlookup, ok_bind]
  change ((markLast _).mapM _ >>= fun parts => Except.ok parts.flatten) = _
  rw [hentries, ok_bind, optionLines, List.flatMap_def]

/-- The template writes the program. -/
theorem render_template (r : TextRequest) :
    template.render (r.context [("options", .ofTexts (optionEntries r))]) = .ok (program r) := by
  have hthen (context : Context) :
      (Piece.lines ["  .then(response => response.json())",
        "  .then(data => console.log(data))"]).render context =
        .ok "  .then(response => response.json())\n  .then(data => console.log(data))\n" := rfl
  rw [template, Template.render]
  simp only [renderAll, render_optionLines, hthen, TextRequest.render_text,
    TextRequest.render_quoted _ (r.lookup_url _), ok_bind, List.append_nil, program]

/-- The exported program is what the template writes. -/
theorem render_program (r : TextRequest) :
    render .standard r.descriptor (.str "javascript") = .ok (program r) := by
  have hextend : generator.extend r.descriptor r.parts =
      .ok [("options", .ofTexts (optionEntries r))] := by
    change (options r.parts >>= _) = _
    rw [options_parts, ok_bind]
  exact render_standard_of_template .javascript r rfl hextend (render_template r)

end HttpWorkbench.Export.JavaScript
