import HttpWorkbench.Proofs.Export.DistinctRequests
import HttpWorkbench.Proofs.Export.SentRequest

/-!
# Programs header by header

In every language the program has a fragment for each header that is sent, in order, and what stands
around these fragments is made without the headers: only whether there are any shows in it and, where
a body of C# needs a type, the type that the headers name. So a header that is changed changes its
own fragment, and nothing else but that type.
-/

namespace HttpWorkbench

open Export

/-- What a program is made from apart from its headers. -/
@[ext] structure Outline where
  method : Text
  url : Text
  body : Option Text
  /-- Whether there is a header to send. -/
  hasHeaders : Bool
  /-- The type that the headers name for the body, where the program states it. -/
  declaredType : Option Text
  deriving DecidableEq, Repr

/-- The request of an outline, without headers. -/
def Outline.request (o : Outline) : TextRequest := ⟨o.method, o.url, [], o.body⟩

/-- The one text if there are headers, and the other if there are none. -/
def Outline.choose (o : Outline) (some none : Text) : Text := if o.hasHeaders then some else none

/-- The outline of a request. Only C# states the type of a body. -/
def TextRequest.outline (l : Language) (r : TextRequest) : Outline where
  method := r.method
  url := r.url
  body := r.body
  hasHeaders := !r.usable.isEmpty
  declaredType :=
    if l = .csharp ∧ r.sentBody.isSome then CSharp.declaredType r.headers else none

/-- How programs of a language are put together. -/
structure Layout where
  opening : Outline → Text
  fragment : Text × Text → Text
  separator : Text
  closing : Outline → Text

namespace Layout

/-- The program with a fragment for each header. -/
def program (layout : Layout) (o : Outline) (headers : List (Text × Text)) : Text :=
  layout.opening o ++
    (Text.join layout.separator (headers.map layout.fragment) ++ layout.closing o)

/-- The continuation lines of the headers stand between those of the url and the body. -/
def curl : Layout where
  opening o := "curl -X " ++ (o.method ++ (" \"" ++ ((Escape.backslash '"').apply o.url ++ "\"")))
  fragment := Curl.headerLine
  separator := ""
  closing o := Curl.bodyLine o.request.sentBody

/-- The headers are entries of the second option. -/
def javaScript : Layout where
  opening o :=
    "const options = \x7b\n  method: " ++ (JavaScript.literalText o.method ++
      o.choose ",\n  headers: \x7b\n" "")
  fragment := JavaScript.headerEntry
  separator := ",\n"
  closing o :=
    o.choose "\n  \x7d" "" ++
      (JavaScript.separated ",\n" (JavaScript.bodyEntry o.request.sentBody) ++
        ("\n\x7d;\n\nfetch(\"" ++ ((Escape.backslash '"').apply o.url ++ ("\", options)\n" ++
          ("  .then(response => response.json())\n  .then(data => console.log(data))\n" ++
            "  .catch(error => console.error(error));")))))

/-- The headers are entries of a table, which is closed at once if there are none. -/
def python : Layout where
  opening o :=
    Python.imports o.request.sentBody ++ o.choose "headers = \x7b\n" "headers = \x7b\x7d\n"
  fragment := Python.headerLine
  separator := ""
  closing o :=
    o.choose "\x7d\n" "" ++ ("\n" ++ (Python.sendLines o.request ++ Python.ending))

/-- The headers are the values of an option. -/
def php : Layout where
  opening o :=
    Php.opening ++ (Php.fixedOptions o.request ++
      o.choose "    CURLOPT_HTTPHEADER => [\n" "")
  fragment := Php.headerLine
  separator := ""
  closing o :=
    o.choose "    ],\n" "" ++ (Php.bodyOption o.request.sentBody ++ Php.ending)

/-- The headers are added to the client before the body is made. -/
def cSharp : Layout where
  opening _ := CSharp.opening
  fragment := CSharp.headerLine
  separator := ""
  closing o :=
    o.choose "\n" "" ++
      ((match o.request.sentBody with
        | some body =>
          CSharp.contentLines body (o.declaredType.getD CSharp.defaultContentType) ++
            CSharp.callLine o.request "\", content);\n"
        | none => CSharp.callLine o.request "\");\n") ++ CSharp.ending)

/-- The headers are added to the request that is made before them. -/
def go : Layout where
  opening o :=
    Go.opening ++ (Go.bodyImport o.request.sentBody ++ (Go.mainLine ++ (Go.requestLines o.request ++
      Go.checkLines.flatMap fun line => line ++ ("\n" : Text))))
  fragment := Go.headerLine
  separator := ""
  closing o := o.choose "\n" "" ++ Go.ending

end Layout

/-- The layout of a language's programs. -/
def Language.layout : Language → Layout
  | .curl => .curl
  | .javascript => .javaScript
  | .python => .python
  | .php => .php
  | .csharp => .cSharp
  | .go => .go

namespace TextRequest

section Layouts

variable (r : TextRequest)

theorem sentBody_outline (l : Language) : (r.outline l).request.sentBody = r.sentBody := rfl

theorem choose_outline (l : Language) (some none : Text) :
    (r.outline l).choose some none = if r.usable = [] then none else some := by
  cases hu : r.usable <;> simp [Outline.choose, outline, hu]

/-- Without a separator, the fragments are one text. -/
theorem join_map (fragment : Text × Text → Text) (headers : List (Text × Text)) :
    Text.join "" (headers.map fragment) = headers.flatMap fragment := by
  rw [Text.join_empty, List.flatMap_def]

theorem program_curl : Layout.curl.program (r.outline .curl) r.usable = Curl.command r := by
  simp only [Layout.program, Layout.curl, join_map, sentBody_outline, Curl.command,
    List.append_assoc]
  rfl

theorem program_javaScript :
    Layout.javaScript.program (r.outline .javascript) r.usable = JavaScript.program r := by
  simp only [Layout.program, Layout.javaScript, sentBody_outline, choose_outline,
    JavaScript.program, JavaScript.optionEntries, JavaScript.optionLines_cons,
    JavaScript.headersEntry, JavaScript.separated, List.append_assoc]
  by_cases hu : r.usable = []
  · simp only [hu, if_true]
    rfl
  · simp only [hu, if_false, List.singleton_append, List.flatMap_cons, List.append_assoc]
    rfl

theorem program_python : Layout.python.program (r.outline .python) r.usable = Python.script r := by
  simp only [Layout.program, Layout.python, join_map, sentBody_outline, choose_outline,
    Python.script, Python.headerTable, List.append_assoc]
  by_cases hu : r.usable = []
  · simp only [hu, if_true]
    rfl
  · simp only [hu, if_false, List.append_assoc]
    rfl

theorem program_php : Layout.php.program (r.outline .php) r.usable = Php.script r := by
  simp only [Layout.program, Layout.php, join_map, sentBody_outline, choose_outline, Php.script,
    Php.headerOption, List.append_assoc]
  by_cases hu : r.usable = []
  · simp only [hu, if_true]
    rfl
  · simp only [hu, if_false, List.append_assoc]
    rfl

/-- The type is in the outline if the program states it. -/
theorem program_cSharp : Layout.cSharp.program (r.outline .csharp) r.usable = CSharp.program r := by
  simp only [Layout.program, Layout.cSharp, join_map, sentBody_outline, choose_outline,
    CSharp.program, CSharp.headerLines, CSharp.sendLines, CSharp.bodyType, List.append_assoc]
  cases hbody : r.sentBody with
  | none => rfl
  | some body =>
    have htype : (r.outline .csharp).declaredType = CSharp.declaredType r.headers :=
      if_pos ⟨rfl, by rw [hbody]; rfl⟩
    simp only [htype, List.append_assoc]
    rfl

theorem program_go : Layout.go.program (r.outline .go) r.usable = Go.program r := by
  simp only [Layout.program, Layout.go, join_map, sentBody_outline, choose_outline, Go.program,
    Go.headerLines, List.append_assoc]
  rfl

/-- The program of every language has its layout. -/
theorem program_layout (l : Language) :
    l.layout.program (r.outline l) r.usable = l.program r := by
  cases l with
  | curl => exact r.program_curl
  | javascript => exact r.program_javaScript
  | python => exact r.program_python
  | php => exact r.program_php
  | csharp => exact r.program_cSharp
  | go => exact r.program_go

end Layouts

section Changed

/-- A text in a row has something in front of it and something behind it, whatever it is. -/
theorem exists_join_eq (separator : Text) (before after : List Text) :
    ∃ front back : Text, ∀ t,
      Text.join separator (before ++ t :: after) = front ++ (t ++ back) := by
  induction before with
  | nil =>
    exact ⟨[], JavaScript.separated separator after, fun t =>
      JavaScript.join_cons separator t after⟩
  | cons s before ih =>
    obtain ⟨front, back, hjoin⟩ := ih
    refine ⟨s ++ (separator ++ front), back, fun t => ?_⟩
    have hcons : Text.join separator (s :: (before ++ t :: after)) =
        s ++ (separator ++ Text.join separator (before ++ t :: after)) := by
      rw [JavaScript.join_cons]
      cases before <;>
        simp [JavaScript.join_cons, JavaScript.separated]
    rw [List.cons_append, hcons, hjoin]
    simp only [List.append_assoc]

/-- What stands in front of the headers does not state the type of the body. -/
theorem opening_withType (l : Language) (o : Outline) (type : Option Text) :
    l.layout.opening { o with declaredType := type } = l.layout.opening o := by
  cases l <;> rfl

variable {r : TextRequest} {before after : List (Text × Text)} {h : Text × Text}

theorem usable_of_headers_eq (hheaders : r.headers = before ++ h :: after)
    (hkey : Text.isAllBlank h.1 = false) :
    r.usable = before.filter (fun g => !Text.isAllBlank g.1) ++
      h :: after.filter fun g => !Text.isAllBlank g.1 := by
  rw [usable, hheaders, List.filter_append, List.filter_cons_of_pos (by rw [hkey]; rfl)]

theorem hasHeaders_of_headers_eq (l : Language) (hheaders : r.headers = before ++ h :: after)
    (hkey : Text.isAllBlank h.1 = false) : (r.outline l).hasHeaders = true := by
  simp [outline, usable_of_headers_eq hheaders hkey, List.isEmpty_eq_false_iff]

/-- With a header that is sent changed into another one, only the type can change in the outline. -/
theorem outline_changed (l : Language) (hheaders : r.headers = before ++ h :: after)
    (hkey : Text.isAllBlank h.1 = false) {h' : Text × Text} (hkey' : Text.isAllBlank h'.1 = false) :
    outline l { r with headers := before ++ h' :: after } =
      { r.outline l with
        declaredType := (outline l { r with headers := before ++ h' :: after }).declaredType } := by
  have hsome := hasHeaders_of_headers_eq l hheaders hkey
  have hsome' : (outline l { r with headers := before ++ h' :: after }).hasHeaders = true :=
    hasHeaders_of_headers_eq l rfl hkey'
  exact Outline.ext rfl rfl rfl (hsome'.trans hsome.symm) rfl

/-- The outlines are the same if the headers name the same type, or if the type does not matter. -/
theorem declaredType_outline_eq (l : Language) {headers : List (Text × Text)}
    (htype : l = .csharp → r.sentBody.isSome →
      CSharp.declaredType headers = CSharp.declaredType r.headers) :
    (outline l { r with headers }).declaredType = (r.outline l).declaredType := by
  change (if l = .csharp ∧ r.sentBody.isSome then _ else _) =
    if l = .csharp ∧ r.sentBody.isSome then _ else _
  split
  · rename_i hmatters
    exact htype hmatters.1 hmatters.2
  · rfl

end Changed

/-- In every language, the program for a request made of texts is an opening, the fragments of the
headers whose key is not blank, in order, and a closing. A fragment is made from its own header; the
opening and the closing are made from the method, the url, the body, whether there are such headers
and, in C# with a body that is sent, the type that the first header for it names. The fragments stand
side by side, but for browsers with a comma and a line end between two of them. So if one header is
changed into another, its own fragment changes and nothing else but that type. -/
theorem render_header_fragments (l : Language) (r : TextRequest) :
    (render .standard r.descriptor (.str l.tag) =
      .ok (l.layout.opening (r.outline l) ++
        (Text.join l.layout.separator (r.usable.map l.layout.fragment) ++
          l.layout.closing (r.outline l)))) ∧
    l.layout.separator = (if l = .javascript then ",\n" else "" : Text) ∧
    ∀ (before after : List (Text × Text)) (h h' : Text × Text),
      r.headers = before ++ h :: after → Text.isAllBlank h.1 = false →
      Text.isAllBlank h'.1 = false →
      ∃ front back : Text,
        render .standard r.descriptor (.str l.tag) =
          .ok (front ++ (l.layout.fragment h ++ (back ++ l.layout.closing (r.outline l)))) ∧
        render .standard (descriptor { r with headers := before ++ h' :: after }) (.str l.tag) =
          .ok (front ++ (l.layout.fragment h' ++ (back ++
            l.layout.closing (outline l { r with headers := before ++ h' :: after })))) ∧
        ((l = .csharp → r.sentBody.isSome →
            CSharp.declaredType (before ++ h' :: after) = CSharp.declaredType r.headers) →
          outline l { r with headers := before ++ h' :: after } = r.outline l) := by
  have hprogram (r : TextRequest) : render .standard r.descriptor (.str l.tag) =
      .ok (l.layout.program (r.outline l) r.usable) := by
    rw [render_standard_text, program_layout]
  refine ⟨hprogram r, by cases l <;> rfl, fun before after h h' hheaders hkey hkey' => ?_⟩
  obtain ⟨front, back, hjoin⟩ := exists_join_eq l.layout.separator
    ((before.filter fun g => !Text.isAllBlank g.1).map l.layout.fragment)
    ((after.filter fun g => !Text.isAllBlank g.1).map l.layout.fragment)
  have houtline := outline_changed l hheaders hkey hkey'
  have hopening := opening_withType l (r.outline l)
    (outline l { r with headers := before ++ h' :: after }).declaredType
  rw [← houtline] at hopening
  refine ⟨l.layout.opening (r.outline l) ++ front, back, ?_, ?_, fun htype => ?_⟩
  · rw [hprogram, Layout.program, usable_of_headers_eq hheaders hkey, List.map_append,
      List.map_cons, hjoin]
    simp only [List.append_assoc]
  · rw [hprogram, Layout.program, usable_of_headers_eq rfl hkey', List.map_append, List.map_cons,
      hjoin, hopening]
    simp only [List.append_assoc]
  · rw [houtline, declaredType_outline_eq l htype]

/-- Two headers of one name with a blank key between them, of which the second becomes a header with a
comma and a line end in its value. -/
theorem render_header_fragments_duplicate :
    Text.isAllBlank "A" = false ∧ Text.isAllBlank "B" = false ∧
    ∃ front back : Text,
      render .standard (descriptor ⟨"PUT", "https://x", [("A", "1"), (" ", "2"), ("A", "1")],
          some "b"⟩) (.str "javascript") =
        .ok (front ++ ("    \"A\": \"1\"" ++ (back ++
          Layout.javaScript.closing ⟨"PUT", "https://x", some "b", true, none⟩))) ∧
      render .standard (descriptor ⟨"PUT", "https://x", [("A", "1"), (" ", "2"), ("B", ",\n")],
          some "b"⟩) (.str "javascript") =
        .ok (front ++ ("    \"B\": \",\n\"" ++ (back ++
          Layout.javaScript.closing ⟨"PUT", "https://x", some "b", true, none⟩))) := by
  obtain ⟨-, -, hchanged⟩ := render_header_fragments .javascript
    ⟨"PUT", "https://x", [("A", "1"), (" ", "2"), ("A", "1")], some "b"⟩
  obtain ⟨front, back, hbefore, hafter, -⟩ :=
    hchanged [("A", "1"), (" ", "2")] [] ("A", "1") ("B", ",\n") rfl (by decide) (by decide)
  exact ⟨by decide, by decide, front, back, hbefore, hafter⟩

end TextRequest

end HttpWorkbench
