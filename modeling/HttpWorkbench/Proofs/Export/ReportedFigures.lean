import HttpWorkbench.Proofs.Export.HeaderFragments
import HttpWorkbench.Proofs.Export.Reported

/-!
# Figures that agree with the program

A report and the program in it are made one after the other from the same descriptor: the warnings
and the figures look at the headers and at the body, and the template is filled. For requests made
of texts they agree. A body leaves its mark in a program, so that the program shows whether there is
one and, in the languages with a form for objects, whether it is written in that form.
-/

namespace HttpWorkbench

open Export

/-- What a program says of a body: what is imported for it, the lines that make it, and what the
request is given of it. -/
structure BodySection where
  imported : Text
  made : Text
  given : Text

/-- What a program says apart from a body. -/
structure Frame where
  opening : Text
  middle : Text
  call : Text
  closing : Text

/-- The program of a frame that says something of a body. -/
def Frame.fill (f : Frame) (s : BodySection) : Text :=
  f.opening ++ (s.imported ++ (f.middle ++ (s.made ++ (f.call ++ (s.given ++ f.closing)))))

namespace BodySection

/-- How many characters are said of a body. -/
def size (s : BodySection) : Nat := s.imported.length + s.made.length + s.given.length

theorem size_eq_of_fill_eq {f : Frame} {s s' : BodySection} (h : f.fill s = f.fill s') :
    s.size = s'.size := by
  have hlength := congrArg List.length h
  simp only [Frame.fill, List.length_append] at hlength
  rw [size, size]
  omega

end BodySection

namespace Frame

/-- The body is the last word of the command. -/
def curl (r : TextRequest) : Frame where
  opening := []
  middle := []
  call := "curl -X " ++ (r.method ++ (" \"" ++ ((Escape.backslash '"').apply r.url ++
    ("\"" ++ r.usable.flatMap Curl.headerLine))))
  closing := []

/-- The body is the last option. -/
def javaScript (r : TextRequest) : Frame where
  opening := []
  middle := []
  call := "const options = \x7b\n  method: " ++ (JavaScript.literalText r.method ++
    JavaScript.separated ",\n" (JavaScript.headersEntry r.usable))
  closing := "\n\x7d;\n\nfetch(\"" ++ ((Escape.backslash '"').apply r.url ++ ("\", options)\n" ++
    ("  .then(response => response.json())\n  .then(data => console.log(data))\n" ++
      "  .catch(error => console.error(error));")))

/-- The body is made behind the table of headers. -/
def python (r : TextRequest) : Frame where
  opening := []
  middle := "import requests\n\n" ++ (Python.headerTable r.usable ++ "\n")
  call := "response = requests." ++ (Text.lower r.method ++ ("(\"" ++
    ((Escape.backslash '"').apply r.url ++ "\", headers=headers")))
  closing := ")\n" ++ Python.ending

/-- The body is the last option. -/
def php (r : TextRequest) : Frame where
  opening := []
  middle := []
  call := Php.opening ++ (Php.fixedOptions r ++ Php.headerOption r.usable)
  closing := Php.ending

/-- The body is made behind the headers. -/
def cSharp (r : TextRequest) : Frame where
  opening := []
  middle := CSharp.opening ++ CSharp.headerLines r.usable
  call := CSharp.callLine r "\""
  closing := ");\n" ++ CSharp.ending

/-- The body is made before the request, and what reads it is imported. -/
def go (r : TextRequest) : Frame where
  opening := Go.opening
  middle := Go.mainLine
  call := "    req, err := http.NewRequest(\"" ++ ((Escape.backslash '"').apply r.method ++
    ("\", \"" ++ ((Escape.backslash '"').apply r.url ++ "\", ")))
  closing := ")\n" ++ (Go.checkLines.flatMap (fun line => line ++ ("\n" : Text)) ++
    (Go.headerLines r.usable ++ Go.ending))

end Frame

namespace Language

/-- What the program for a request says apart from the body. -/
def frame : Language → TextRequest → Frame
  | .curl => .curl
  | .javascript => .javaScript
  | .python => .python
  | .php => .php
  | .csharp => .cSharp
  | .go => .go

/-- What the program for a request says of a body, in the form for objects or in that for texts.
Only two languages have two forms, and only C# states a type, which the headers name. -/
def bodySection (l : Language) (r : TextRequest) (body : Text) (isObject : Bool) : BodySection :=
  match l, isObject with
  | .curl, _ => ⟨[], [], Curl.bodyLine (some body)⟩
  | .javascript, true => ⟨[], [], ",\n  body: " ++ body⟩
  | .javascript, false => ⟨[], [], ",\n  body: " ++ JavaScript.literalText body⟩
  | .python, true =>
    ⟨"import json\n\n", "data = json.loads('''" ++ ((Escape.backslash '\x27').apply body ++
      "''')\n\n"), ", json=data"⟩
  | .python, false =>
    ⟨[], "data = \"" ++ ((Escape.backslash '"').apply body ++ "\"\n\n"), ", data=data"⟩
  | .php, _ => ⟨[], [], Php.bodyOption (some body)⟩
  | .csharp, _ => ⟨[], CSharp.contentLines body (CSharp.bodyType r.headers), ", content"⟩
  | .go, _ =>
    ⟨Go.bodyImport (some body), "    payload := strings.NewReader(\x60" ++ (Escape.raw.apply body ++
      "\x60)\n\n"), "payload"⟩

/-- What stands in place of a body where there is none. -/
def bodiless : Language → BodySection
  | .go => ⟨[], [], "nil"⟩
  | _ => ⟨[], [], []⟩

/-- The language has a form for bodies that are objects. -/
def HasObjectForm (l : Language) : Prop := l = .javascript ∨ l = .python

end Language

/-- Replacing a mark by something makes no text shorter. -/
theorem Export.Escape.length_le_length_apply {e : Escape} (h : e.replacement ≠ []) (s : Text) :
    s.length ≤ (e.apply s).length := by
  induction s with
  | nil => exact Nat.le_refl 0
  | cons c s ih =>
    have hpositive := List.length_pos_of_ne_nil h
    rw [Escape.apply_cons, List.length_append, List.length_cons]
    split
    · omega
    · rw [List.length_singleton]
      omega

theorem Export.CSharp.callLine_append (r : TextRequest) (s t : Text) :
    CSharp.callLine r (s ++ t) = CSharp.callLine r s ++ t := by
  simp only [CSharp.callLine, List.append_assoc]

namespace TextRequest

section Filled

variable {l : Language} {r : TextRequest} {body : Text}

/-- The program for a request whose body is sent says what it is, in the form for its shape. -/
theorem program_of_sentBody (h : r.sentBody = some body) :
    l.program r = (l.frame r).fill (l.bodySection r body (opensObject body)) := by
  cases l with
  | curl =>
    simp only [Language.program, Curl.command, Frame.fill, Language.frame, Frame.curl,
      Language.bodySection, h, List.append_assoc, List.nil_append, List.append_nil]
  | javascript =>
    simp only [Language.program, JavaScript.program, JavaScript.optionEntries,
      JavaScript.optionLines_cons, JavaScript.separated, JavaScript.bodyEntry, Frame.fill,
      Language.frame, Frame.javaScript, h, List.flatMap_append, List.flatMap_singleton,
      List.append_assoc, List.nil_append]
    cases opensObject body <;> rfl
  | python =>
    simp only [Language.program, Python.script, Python.imports, Python.sendLines, Python.bodyLine,
      Python.bodyKeyword, Frame.fill, Language.frame, Frame.python, h, Option.any_some,
      List.append_assoc, List.nil_append]
    cases opensObject body with
    | true =>
      simp only [Language.bodySection, if_true, List.append_assoc]
      rfl
    | false =>
      simp only [Language.bodySection, Bool.false_eq_true, if_false, List.append_assoc]
      rfl
  | php =>
    simp only [Language.program, Php.script, Frame.fill, Language.frame, Frame.php,
      Language.bodySection, h, List.append_assoc, List.nil_append]
  | csharp =>
    have hclosing : ("\", content);\n" : Text) = "\"" ++ (", content" ++ ");\n") := rfl
    simp only [Language.program, CSharp.program, CSharp.sendLines, Frame.fill, Language.frame,
      Frame.cSharp, Language.bodySection, h, hclosing, CSharp.callLine_append, List.append_assoc,
      List.nil_append]
  | go =>
    simp only [Language.program, Go.program, Go.requestLines, Go.requestLine, Frame.fill,
      Language.frame, Frame.go, Language.bodySection, h, List.append_assoc]

/-- The program for a request of which no body is sent says nothing of one. -/
theorem program_of_sentBody_none (h : r.sentBody = none) :
    l.program r = (l.frame r).fill l.bodiless := by
  cases l with
  | curl =>
    simp only [Language.program, Curl.command, Curl.bodyLine, Frame.fill, Language.frame,
      Frame.curl, Language.bodiless, h, List.nil_append, List.append_nil]
  | javascript =>
    simp only [Language.program, JavaScript.program, JavaScript.optionEntries,
      JavaScript.optionLines_cons, JavaScript.bodyEntry, Frame.fill, Language.frame,
      Frame.javaScript, Language.bodiless, h, List.append_assoc, List.nil_append, List.append_nil]
    rfl
  | python =>
    simp only [Language.program, Python.script, Python.imports, Python.sendLines, Frame.fill,
      Language.frame, Frame.python, Language.bodiless, h, Option.any_none, List.append_assoc,
      List.nil_append]
    rfl
  | php =>
    simp only [Language.program, Php.script, Php.bodyOption, Frame.fill, Language.frame, Frame.php,
      Language.bodiless, h, List.append_assoc, List.nil_append]
    rfl
  | csharp =>
    have hclosing : ("\");\n" : Text) = "\"" ++ ");\n" := rfl
    simp only [Language.program, CSharp.program, CSharp.sendLines, Frame.fill, Language.frame,
      Frame.cSharp, Language.bodiless, h, hclosing, CSharp.callLine_append, List.append_assoc,
      List.nil_append]
  | go =>
    simp only [Language.program, Go.program, Go.requestLines, Go.requestLine, Frame.fill,
      Language.frame, Frame.go, Language.bodiless, h, List.append_assoc, List.nil_append]
    rfl

/-- What a program says of a body cannot be taken for what stands where there is none. -/
theorem fill_bodySection_ne (f : Frame) (l : Language) (r : TextRequest) (body : Text)
    (isObject : Bool) : f.fill (l.bodySection r body isObject) ≠ f.fill l.bodiless := by
  have hgiven : l.bodiless.given.length < (l.bodySection r body isObject).given.length := by
    cases l with
    | go => exact (by decide : ("nil" : Text).length < ("payload" : Text).length)
    | javascript | python => cases isObject <;> exact Nat.zero_lt_succ _
    | _ => exact Nat.zero_lt_succ _
  have hbodiless : l.bodiless.size = l.bodiless.given.length := by
    cases l <;> rfl
  intro heq
  have hsize := BodySection.size_eq_of_fill_eq heq
  rw [hbodiless, BodySection.size] at hsize
  omega

/-- Where a language has a form for objects, it cannot be taken for the form for texts. -/
theorem fill_objectForm_ne (hform : l.HasObjectForm) (r : TextRequest) (body : Text) :
    (l.frame r).fill (l.bodySection r body true) ≠
      (l.frame r).fill (l.bodySection r body false) := by
  rcases hform with rfl | rfl
  · -- Quotes make a text longer.
    intro heq
    have hsize := BodySection.size_eq_of_fill_eq heq
    have hlength := Escape.length_le_length_apply (e := .backslash '"') (by decide) body
    have hquotes : (JavaScript.literalText body).length =
        ((Escape.backslash '"').apply body).length + 2 := by
      simp only [JavaScript.literalText, List.length_append]
      have hquote : ("\"" : Text).length = 1 := rfl
      omega
    simp only [BodySection.size, Language.bodySection, List.length_append] at hsize
    omega
  · -- Only for objects, something else is imported first.
    have himports : Diverge "import json\n\n" "import requests\n\n" := by decide
    simp only [Frame.fill, Language.frame, Language.bodySection, List.nil_append, List.append_assoc]
    exact himports.append_ne _ _

/-- Where a language has no form for objects, they are written as other texts. -/
theorem bodySection_eq (hform : ¬l.HasObjectForm) (r : TextRequest) (body : Text) :
    l.bodySection r body true = l.bodySection r body false := by
  cases l with
  | javascript => exact absurd (.inl rfl) hform
  | python => exact absurd (.inr rfl) hform
  | _ => rfl

/-- What a program says apart from a body does not depend on it. -/
theorem frame_withBody (l : Language) (r : TextRequest) (body : Option Text) :
    l.frame { r with body } = l.frame r := by
  cases l <;> rfl

/-- A body that is sent is that of the request. -/
theorem body_of_sentBody (h : r.sentBody = some body) : r.body = some body := by
  rw [sentBody] at h
  split at h
  · exact h
  · cases h

end Filled

section Reported

variable (l : Language) (r : TextRequest)

/-- A body is sent exactly where the program says what the body of the request is. -/
theorem isSome_sentBody_iff : r.sentBody.isSome = true ↔ ∃ body form, r.body = some body ∧
    l.program r = (l.frame r).fill (l.bodySection r body form) := by
  constructor
  · intro hsome
    obtain ⟨body, hbody⟩ := Option.isSome_iff_exists.mp hsome
    exact ⟨body, opensObject body, body_of_sentBody hbody, program_of_sentBody hbody⟩
  · rintro ⟨body, form, -, hprogram⟩
    cases hbody : r.sentBody with
    | some body => rfl
    | none =>
      rw [program_of_sentBody_none hbody] at hprogram
      exact absurd hprogram.symm (fill_bodySection_ne _ l r body form)

/-- No body is sent exactly where the program says nothing of one. -/
theorem isSome_sentBody_eq_false_iff :
    r.sentBody.isSome = false ↔ l.program r = (l.frame r).fill l.bodiless := by
  cases hbody : r.sentBody with
  | none => exact iff_of_true rfl (program_of_sentBody_none hbody)
  | some body =>
    refine iff_of_false nofun ?_
    rw [program_of_sentBody hbody]
    exact fill_bodySection_ne _ l r body _

/-- Where a language has a form for objects, an object is sent exactly where the program has the
body in that form. -/
theorem any_opensObject_iff {l : Language} (hform : l.HasObjectForm) (r : TextRequest) :
    r.sentBody.any opensObject = true ↔
      ∃ body, r.body = some body ∧ l.program r = (l.frame r).fill (l.bodySection r body true) := by
  cases hbody : r.sentBody with
  | none =>
    refine iff_of_false Bool.false_ne_true ?_
    rintro ⟨body, -, hprogram⟩
    rw [program_of_sentBody_none hbody] at hprogram
    exact fill_bodySection_ne _ l r body true hprogram.symm
  | some body =>
    have hprogram := program_of_sentBody (l := l) hbody
    constructor
    · intro hobject
      rw [show opensObject body = true from hobject] at hprogram
      exact ⟨body, body_of_sentBody hbody, hprogram⟩
    · rintro ⟨body', hbody', hobject⟩
      obtain rfl : body = body' :=
        Option.some.inj ((body_of_sentBody hbody).symm.trans hbody')
      refine Bool.of_not_eq_false fun htext => ?_
      rw [show opensObject body = false from htext] at hprogram
      exact fill_objectForm_ne hform r body (hobject.symm.trans hprogram)

/-- What is reported of a request made of texts. -/
theorem report_descriptor :
    Report.make l.generator r.descriptor = {
      code := l.program r
      warnings :=
        if r.headers.length - r.usable.length = 0 then []
        else [toString (r.headers.length - r.usable.length) ++
          " header(s) with a blank name skipped"]
      metadata := [("language", .str l.generator.languageName),
        ("file_extension", .str l.generator.fileExtension), ("method", .str r.method),
        ("header_count", .int r.usable.length), ("has_body", .bool r.sentBody.isSome),
        ("json_body", .bool (r.sentBody.any opensObject))]
      failure := none } := by
  have hcarried : (r.body.isSome && decide (r.method ∈ bodyMethods)) = r.sentBody.isSome := by
    rw [sentBody]
    split <;> simp [*]
  have husable : usableHeaders r.descriptor.headers = .ok (r.usable.map header) :=
    usableHeaders_map r.headers
  have hcarries : carriesBody r.descriptor.method r.descriptor.body = .ok r.sentBody.isSome := by
    rw [← hcarried]
    exact carriesBody_ofText? r.method r.body
  have hwarnings : Generator.warnings r.descriptor = .ok
      (if r.headers.length - r.usable.length = 0 then []
        else [toString (r.headers.length - r.usable.length) ++
          " header(s) with a blank name skipped"]) := by
    rw [Generator.warnings, husable, ok_bind, List.length_map]
    simp only [descriptor, List.length_map]
  simp only [Report.make, hwarnings, generator_render, Report.figures, sentParts_descriptor,
    hcarries, ok_bind, parts, List.length_map]
  rfl

/-- The report on a request made of texts is never a failure and has the program that rendering
gives, and its figures and warnings agree with this program. The header count is how many fragments
of headers the program is put together from, and with the number in the warning, 0 where there is
none, it adds up to the number of headers. There is a body exactly where the program says what the
body of the request is, and none exactly where the program is that for the request without its body.
In the languages with a form for objects, the body is said to be one exactly where the program has it
in that form; in the others there is no such form. -/
theorem report_agrees_with_program (l : Language) (r : TextRequest) :
    ∃ (code : Text) (fragments : List Text) (skipped : Nat) (hasBody isObject : Bool),
      Report.make l.generator r.descriptor = {
        code
        warnings :=
          if skipped = 0 then [] else [toString skipped ++ " header(s) with a blank name skipped"]
        metadata := [("language", .str l.generator.languageName),
          ("file_extension", .str l.generator.fileExtension), ("method", .str r.method),
          ("header_count", .int fragments.length), ("has_body", .bool hasBody),
          ("json_body", .bool isObject)]
        failure := none } ∧
      l.generator.render r.descriptor = .ok code ∧
      fragments = r.usable.map l.layout.fragment ∧
      code = l.layout.opening (r.outline l) ++
        (Text.join l.layout.separator fragments ++ l.layout.closing (r.outline l)) ∧
      fragments.length + skipped = r.headers.length ∧
      (hasBody = true ↔ ∃ body form, r.body = some body ∧
        code = (l.frame r).fill (l.bodySection r body form)) ∧
      (hasBody = false ↔ code = (l.frame r).fill l.bodiless) ∧
      l.generator.render (descriptor { r with body := none }) = .ok ((l.frame r).fill l.bodiless) ∧
      (isObject = true → hasBody = true) ∧
      (l.HasObjectForm → (isObject = true ↔ ∃ body, r.body = some body ∧
        code = (l.frame r).fill (l.bodySection r body true))) ∧
      (¬l.HasObjectForm → ∀ body, l.bodySection r body true = l.bodySection r body false) := by
  have hlayout : l.program r = l.layout.opening (r.outline l) ++
      (Text.join l.layout.separator (r.usable.map l.layout.fragment) ++
        l.layout.closing (r.outline l)) := (r.program_layout l).symm
  have hfewer : r.usable.length ≤ r.headers.length := List.length_filter_le _ _
  have hwithout : l.generator.render (descriptor { r with body := none }) =
      .ok ((l.frame r).fill l.bodiless) := by
    have hnone : sentBody { r with body := none } = none := by
      rw [sentBody]
      split <;> rfl
    rw [generator_render, program_of_sentBody_none hnone, frame_withBody]
  refine ⟨l.program r, r.usable.map l.layout.fragment, r.headers.length - r.usable.length,
    r.sentBody.isSome, r.sentBody.any opensObject, ?_, generator_render l r, rfl, hlayout, ?_, ?_,
    ?_, hwithout, ?_, fun hform => ?_, fun hform => bodySection_eq hform r⟩
  · rw [List.length_map]
    exact report_descriptor l r
  · rw [List.length_map]
    omega
  · exact isSome_sentBody_iff l r
  · exact isSome_sentBody_eq_false_iff l r
  · exact Option.isSome_of_any
  · exact any_opensObject_iff hform r

/-- A request with a header under a blank key, another one twice, and a body that opens an object
behind a blank. -/
def mixedRequest : TextRequest :=
  ⟨"PUT", "https://x", [("A", "1"), (" ", "2"), ("A", "1")], some " \x7b"⟩

/-- One header is passed over, two have their fragments, and the body is written as it is. -/
theorem report_agrees_with_program_mixed :
    ∃ code, Report.make Language.javascript.generator mixedRequest.descriptor = {
        code
        warnings := [("1 header(s) with a blank name skipped" : Text)]
        metadata := [("language", .str "javascript"), ("file_extension", .str ".js"),
          ("method", .str "PUT"), ("header_count", .int 2), ("has_body", .bool true),
          ("json_body", .bool true)]
        failure := none } ∧
      Language.javascript.HasObjectForm ∧ ∃ body, mixedRequest.body = some body ∧
        code = (Language.javascript.frame mixedRequest).fill
          (Language.javascript.bodySection mixedRequest body true) := by
  obtain ⟨code, _, _, _, isObject, hreport, -, -, -, -, -, -, -, -, hform, -⟩ :=
    report_agrees_with_program .javascript mixedRequest
  have hmade := report_descriptor .javascript mixedRequest
  obtain ⟨hcode, -, hmetadata, -⟩ := Report.mk.inj (hreport.symm.trans hmade)
  have hobject : isObject = true :=
    Value.bool.inj (Option.some.inj (congrArg (Assoc.get? ("json_body" : Text)) hmetadata))
  refine ⟨code, ?_, .inl rfl, (hform (.inl rfl)).mp hobject⟩
  rw [hmade, hcode]
  rfl

end Reported

end TextRequest

end HttpWorkbench
