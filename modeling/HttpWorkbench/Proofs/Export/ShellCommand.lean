import HttpWorkbench.Proofs.Export.Standard
import HttpWorkbench.Proofs.Shell.Words

/-!
# Shell commands read back

The command that is written for a request, and what a shell makes of it: the words of the command
are its method, its url, its headers and its body, unchanged, however many quotes, blanks and line
ends these hold.
-/

namespace HttpWorkbench.Export.Curl

open Shell

/-- The continuation line of a header. -/
def headerLine (h : Text × Text) : Text :=
  " \\\n  -H \"" ++ ((Escape.backslash '"').apply h.1 ++ (": " ++
    ((Escape.backslash '"').apply h.2 ++ "\"")))

/-- The continuation line of a body. -/
def bodyLine : Option Text → Text
  | none => []
  | some body => " \\\n  -d '" ++ (Escape.shell.apply body ++ "'")

/-- The command for a request. -/
def command (r : TextRequest) : Text :=
  "curl -X " ++ (r.method ++ (" \"" ++ ((Escape.backslash '"').apply r.url ++ ("\"" ++
    (r.usable.flatMap headerLine ++ bodyLine r.sentBody)))))

/-- The words that a header adds to the command. -/
def headerWords (h : Text × Text) : List Text := ["-H", h.1 ++ ": " ++ h.2]

/-- The words that a body adds to the command. -/
def bodyWords : Option Text → List Text
  | none => []
  | some body => ["-d", body]

/-- The template writes the command. -/
theorem render_template (r : TextRequest) :
    template.render (r.context []) = .ok (command r) := by
  have hline (h : Text × Text) (last : Bool) :
      renderAll ((r.context []).atItem "header" (TextRequest.header h).toValue last)
        [.text " \\\n  -H \"", .headerPart .key, .text ": ", .headerPart .value, .text "\""] =
          .ok (headerLine h) := TextRequest.renderAll_header _ h last _ _ _
  simp only [template, Template.render, renderAll, TextRequest.render_text,
    TextRequest.render_word (r.lookup_method []), TextRequest.render_quoted _ (r.lookup_url []),
    r.render_eachHeader [] hline, r.render_choice_body [], ok_bind, List.append_nil, command]
  cases hbody : r.sentBody with
  | none => simp [bodyLine]
  | some body =>
    have hlookup := r.lookup_body_of_some [] hbody
    simp only [Option.isSome_some, if_true, ok_bind, TextRequest.render_quoted _ hlookup, bodyLine]

/-- The exported program is the command. -/
theorem render_command (r : TextRequest) :
    render .standard r.descriptor (.str "curl") = .ok (command r) :=
  render_standard_of_template .curl r rfl rfl (render_template r)

/-- The continuation line of a header adds the option and the header. -/
theorem addsWords_headerLine {h : Text × Text} (key : IsQuotable h.1) (value : IsQuotable h.2) :
    AddsWords (headerLine h) (headerWords h) := by
  intro done word
  have hline : headerLine h =
      " \\\n  -H " ++ ("\"" ++ ((Escape.backslash '"').apply (h.1 ++ ": " ++ h.2) ++ "\"")) := by
    have hcolon : (Escape.backslash '"').apply ": " = ": " := rfl
    simp only [Escape.apply_append, hcolon, List.append_assoc]
    rfl
  have hoption : (⟨.bare, done, some word⟩ : Reader).feed " \\\n  -H " =
      some ⟨.bare, done ++ [word] ++ [("-H" : Text)], none⟩ := rfl
  refine ⟨done ++ [word] ++ [("-H" : Text)], h.1 ++ ": " ++ h.2, ?_, ?_⟩
  · rw [hline, Reader.feed_append, hoption, Option.bind_some,
      Reader.feed_double_quoted _ ((key.append (by decide)).append value)]
  · simp [headerWords]

/-- The continuation line of a body adds the option and the body. -/
theorem addsWords_bodyLine (body : Option Text) :
    AddsWords (bodyLine body) (bodyWords body) := by
  cases body with
  | none => exact AddsWords.nil
  | some s =>
    intro done word
    have hline : bodyLine (some s) = " \\\n  -d " ++ ("'" ++ (Escape.shell.apply s ++ "'")) := rfl
    have hoption : (⟨.bare, done, some word⟩ : Reader).feed " \\\n  -d " =
        some ⟨.bare, done ++ [word] ++ [("-d" : Text)], none⟩ := rfl
    refine ⟨done ++ [word] ++ [("-d" : Text)], s, ?_, ?_⟩
    · rw [hline, Reader.feed_append, hoption, Option.bind_some, Reader.feed_single_quoted]
    · simp [bodyWords]

/-- The words of the command are those of its request, unchanged. Header keys and values and the url
may hold double quotes, blanks and line ends, the body any character at all. -/
theorem words_render (r : TextRequest) (hne : r.method ≠ [])
    (hmethod : ∀ c ∈ r.method, c.passes Char.isAlpha = true) (hurl : IsQuotable r.url)
    (hheaders : ∀ h ∈ r.headers, IsQuotable h.1 ∧ IsQuotable h.2) :
    ∃ code, render .standard r.descriptor (.str "curl") = .ok code ∧
      words code = some (("curl" : Text) :: "-X" :: r.method :: r.url ::
        ((r.headers.filter fun h => !Text.isAllBlank h.1).flatMap headerWords ++
          bodyWords (if r.method ∈ bodyMethods then r.body else none))) := by
  refine ⟨command r, render_command r, ?_⟩
  have hoptions : Reader.start.feed "curl -X " =
      some ⟨.bare, [("curl" : Text), "-X"], none⟩ := rfl
  have hblank : (⟨.bare, [("curl" : Text), "-X"], some r.method⟩ : Reader).feed " " =
      some ⟨.bare, [("curl" : Text), "-X", r.method], none⟩ := rfl
  have hcommand : command r = ("curl -X " ++ (r.method ++ (" " ++ ("\"" ++
      ((Escape.backslash '"').apply r.url ++ "\""))))) ++
        (r.usable.flatMap headerLine ++ bodyLine r.sentBody) := by
    simp only [command, List.append_assoc]
    rfl
  have hfeed : Reader.start.feed ("curl -X " ++ (r.method ++ (" " ++ ("\"" ++
      ((Escape.backslash '"').apply r.url ++ "\""))))) =
        some ⟨.bare, [("curl" : Text), "-X", r.method], some r.url⟩ := by
    rw [Reader.feed_append, hoptions, Option.bind_some, Reader.feed_append,
      Reader.feed_plain_word _ hne fun c hc => isPlain_of_isAlpha (hmethod c hc),
      Option.bind_some, Reader.feed_append, hblank, Option.bind_some,
      Reader.feed_double_quoted _ hurl]
  have hlines : AddsWords (r.usable.flatMap headerLine ++ bodyLine r.sentBody)
      (r.usable.flatMap headerWords ++ bodyWords r.sentBody) := by
    refine (AddsWords.flatMap r.usable fun h hh => ?_).append (addsWords_bodyLine _)
    obtain ⟨key, value⟩ := hheaders h (List.mem_filter.mp hh).1
    exact addsWords_headerLine key value
  rw [hcommand]
  exact words_of_addsWords hfeed hlines

/-- A body with quotes, a backslash, an expansion and a line end, and headers of which one is blank
and one repeats a key. -/
theorem words_render_hostile :
    ∃ code, render .standard (⟨"PUT", "https://x/\"a b\"\n", [("A", "1"), (" ", "x"), ("A", "\"2\"")],
        some "it's \\ \"$x\x60\n'"⟩ : TextRequest).descriptor (.str "curl") = .ok code ∧
      words code = some (["curl", "-X", "PUT", "https://x/\"a b\"\n", "-H", "A: 1",
        "-H", "A: \"2\"", "-d", "it's \\ \"$x\x60\n'"] : List Text) :=
  words_render ⟨"PUT", "https://x/\"a b\"\n", [("A", "1"), (" ", "x"), ("A", "\"2\"")],
    some "it's \\ \"$x\x60\n'"⟩ (by decide) (by decide) (by decide) (by decide)

end HttpWorkbench.Export.Curl
