import HttpWorkbench.Proofs.Export.BrowserProgram
import HttpWorkbench.Proofs.Export.CSharpProgram
import HttpWorkbench.Proofs.Export.GoProgram
import HttpWorkbench.Proofs.Export.PhpScript
import HttpWorkbench.Proofs.Export.PythonScript
import HttpWorkbench.Proofs.Export.ShellCommand
import HttpWorkbench.Proofs.Text.Spelling

/-!
# What is not sent has no influence

Every language writes a program for every request made of texts, and the program is that for what is
sent of the request: headers with a blank key, and a body that the method does not carry, leave no
trace in it.
-/

namespace HttpWorkbench

/-- The program of a language for a request made of texts. -/
def Language.program : Language → TextRequest → Text
  | .curl => Export.Curl.command
  | .javascript => Export.JavaScript.program
  | .python => Export.Python.script
  | .php => Export.Php.script
  | .csharp => Export.CSharp.program
  | .go => Export.Go.program

namespace Export

/-- Every request made of texts is exported to every language. -/
theorem render_standard_text (l : Language) (r : TextRequest) :
    render .standard r.descriptor (.str l.tag) = .ok (l.program r) := by
  cases l with
  | curl => exact Curl.render_command r
  | javascript => exact JavaScript.render_program r
  | python => exact Python.render_script r
  | php => exact Php.render_script r
  | csharp => exact CSharp.render_program r
  | go => exact Go.render_program r

/-- What a language's own generator writes is the language's program. -/
theorem generator_render (l : Language) (r : TextRequest) :
    l.generator.render r.descriptor = .ok (l.program r) := by
  rw [← render_standard_tag]
  exact render_standard_text l r

end Export

namespace TextRequest

open Export

/-- What is sent of a request, as a request. -/
def sent (r : TextRequest) : TextRequest := ⟨r.method, r.url, r.usable, r.sentBody⟩

@[simp] theorem method_sent (r : TextRequest) : r.sent.method = r.method := rfl

@[simp] theorem url_sent (r : TextRequest) : r.sent.url = r.url := rfl

@[simp] theorem headers_sent (r : TextRequest) : r.sent.headers = r.usable := rfl

/-- All headers that are sent are usable. -/
@[simp] theorem usable_sent (r : TextRequest) : r.sent.usable = r.usable := by
  rw [usable, headers_sent, usable, List.filter_filter]
  simp

/-- A body that is sent is carried by the method. -/
@[simp] theorem sentBody_sent (r : TextRequest) : r.sent.sentBody = r.sentBody := by
  change (if r.method ∈ bodyMethods then r.sentBody else none) = r.sentBody
  rw [sentBody]
  split <;> rfl

/-- A header with a blank key names no type. -/
theorem declaredType_usable (r : TextRequest) :
    CSharp.declaredType r.usable = CSharp.declaredType r.headers := by
  rw [CSharp.declaredType, CSharp.declaredType, usable, List.find?_filter]
  congr 2
  funext h
  cases htype : Text.lower h.1 == ("content-type" : Text) with
  | false => simp
  | true =>
    have hkey : Text.isAllBlank h.1 = false := by
      rw [Bool.eq_false_iff]
      intro hblank
      exact Text.lower_ne_of_isAllBlank hblank (show Text.isBlank (.char 'c') = false from rfl)
        (beq_iff_eq.mp htype)
    rw [hkey]
    rfl

/-- The program for a request is that for what is sent of it. -/
theorem program_sent (l : Language) (r : TextRequest) : l.program r.sent = l.program r := by
  cases l with
  | curl => simp [Language.program, Curl.command]
  | javascript => simp [Language.program, JavaScript.program, JavaScript.optionEntries]
  | python => simp [Language.program, Python.script, Python.sendLines]
  | php => simp [Language.program, Php.script, Php.fixedOptions]
  | csharp =>
    simp [Language.program, CSharp.program, CSharp.sendLines, CSharp.callLine, CSharp.bodyType,
      declaredType_usable]
  | go => simp [Language.program, Go.program, Go.requestLines, Go.requestLine]

end TextRequest

namespace Export

/-- Two requests that agree on method, url, the headers whose key is not blank and, where the method
carries a body, on the body, are exported to the same program in every language, and there is such a
program: headers with a blank key and bodies of other methods have no influence. -/
theorem render_eq_of_agree (l : Language) {r r' : TextRequest} (hmethod : r.method = r'.method)
    (hurl : r.url = r'.url)
    (hheaders : r.headers.filter (fun h => !Text.isAllBlank h.1) =
      r'.headers.filter (fun h => !Text.isAllBlank h.1))
    (hbody : r.method = "POST" ∨ r.method = "PUT" ∨ r.method = "PATCH" → r.body = r'.body) :
    ∃ code, render .standard r.descriptor (.str l.tag) = .ok code ∧
      render .standard r'.descriptor (.str l.tag) = .ok code := by
  have hsentBody : r.sentBody = r'.sentBody := by
    rw [TextRequest.sentBody, TextRequest.sentBody, ← hmethod]
    split
    · rename_i hmem
      refine hbody ?_
      simp only [bodyMethods, List.mem_cons, List.not_mem_nil, or_false] at hmem
      tauto
    · rfl
  have hsent : r.sent = r'.sent := by
    rw [TextRequest.sent, hmethod, hurl, hsentBody]
    exact congrArg (fun headers => (⟨_, _, headers, _⟩ : TextRequest)) hheaders
  refine ⟨l.program r, render_standard_text l r, ?_⟩
  rw [render_standard_text, ← TextRequest.program_sent l r, hsent, TextRequest.program_sent]

/-- A deletion whose body is dropped and whose blank headers differ, in the language that looks at
every header for the type of the body. -/
theorem render_eq_of_agree_delete :
    ∃ code, render .standard (TextRequest.descriptor ⟨"DELETE", "https://x",
        [(" \t", "text/html"), ("Content-Type", "text/plain")], some "\x7b\"a\": 1\x7d"⟩)
        (.str "csharp") = .ok code ∧
      render .standard (TextRequest.descriptor ⟨"DELETE", "https://x",
        [("Content-Type", "text/plain"), ("", "b")], none⟩) (.str "csharp") = .ok code :=
  render_eq_of_agree .csharp rfl rfl (by decide) (by decide)

end Export

end HttpWorkbench
