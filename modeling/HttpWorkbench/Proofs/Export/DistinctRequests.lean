import HttpWorkbench.Proofs.Export.Delimited
import HttpWorkbench.Proofs.Export.SentRequest

/-!
# Different requests are exported to different programs

In Go and for browsers, a program determines what is sent of the request that it was written for, as
long as method, url and headers have no backslashes. The body may imitate any part of the program:
in Go its backticks are spliced, and for browsers the program is read from its end up to the url, so
that what is left between the headers and the url is the body.
-/

namespace HttpWorkbench

/-- A request without backslashes, except in its body. -/
structure TextRequest.Unslashed (r : TextRequest) : Prop where
  method : .char '\\' ∉ r.method
  url : .char '\\' ∉ r.url
  headers : ∀ h ∈ r.headers, .char '\\' ∉ h.1 ∧ .char '\\' ∉ h.2

namespace Export

theorem Escape.clear_backslash {s : Text} (h : .char '\\' ∉ s) : (backslash '"').Clear s := by
  intro c hc hhead
  obtain rfl : .char '\\' = c := Option.some.inj hhead
  exact absurd hc h

theorem Escape.clear_raw (s : Text) : raw.Clear s := fun _ _ hhead => (Option.some.inj hhead).symm

/-- A double quote delimits a text whose double quotes stand behind backslashes. -/
theorem Escape.delimits_quote : (backslash '"').Delimits "\"" := by decide

/-- A header whose key and value can be told from what follows them. -/
def ClearHeader (h : Text × Text) : Prop :=
  (Escape.backslash '"').Clear h.1 ∧ (Escape.backslash '"').Clear h.2

theorem clearHeader_of_unslashed {r : TextRequest} (hr : r.Unslashed) :
    ∀ h ∈ r.usable, ClearHeader h := by
  intro h hh
  obtain ⟨hkey, hvalue⟩ := hr.headers h (List.mem_filter.mp hh).1
  exact ⟨Escape.clear_backslash hkey, Escape.clear_backslash hvalue⟩

namespace Go

theorem separable_headerLine : Separable ClearHeader headerLine :=
  Escape.separable_pair Escape.delimits_quote _ ⟨_, rfl⟩ ⟨_, rfl⟩

/-- The lines of the headers can be told from what follows them. -/
theorem headerLines_cancel {hs hs' : List (Text × Text)} (hclear : ∀ h ∈ hs, ClearHeader h)
    (hclear' : ∀ h ∈ hs', ClearHeader h) (h : headerLines hs ++ ending = headerLines hs' ++ ending) :
    hs = hs' := by
  have hbehind (headers : List (Text × Text)) (line : Text × Text) (rest : Text) :
      headerLine line ++ rest ≠ (if headers = [] then ("" : Text) else "\n") ++ ending := by
    rw [headerLine, List.append_assoc]
    split
    · have hends : Diverge "    req.Header.Add(\"" ending := by decide
      exact fun heq => hends.append_ne _ [] (heq.trans (List.append_nil _).symm)
    · have hends : Diverge "    req.Header.Add(\"" "\n" := by decide
      exact hends.append_ne _ _
  rw [headerLines, headerLines, List.append_assoc, List.append_assoc] at h
  exact (separable_headerLine.flatMap (hbehind hs) (hbehind hs') hclear hclear' h).1

/-- The line of the request can be told from what follows it. -/
theorem requestLine_cancel {r r' : TextRequest} (hr : r.Unslashed) (hr' : r'.Unslashed)
    (reader : Text) {x y : Text} (h : requestLine r reader ++ x = requestLine r' reader ++ y) :
    r.method = r'.method ∧ r.url = r'.url ∧ x = y := by
  have hmiddle : ("\"" : Text) <+: "\", \"" := ⟨_, rfl⟩
  have hclosing : ("\"" : Text) <+: ("\", " ++ reader ++ ")\n" : Text) := ⟨_, rfl⟩
  have hline := Escape.separable_pair Escape.delimits_quote "    req, err := http.NewRequest(\""
    hmiddle hclosing
  have hclear {r : TextRequest} (hr : r.Unslashed) : ClearHeader (r.method, r.url) :=
    ⟨Escape.clear_backslash hr.method, Escape.clear_backslash hr.url⟩
  obtain ⟨hparts, hxy⟩ := hline (hclear hr) (hclear hr') h
  obtain ⟨hmethod, hurl⟩ := Prod.mk.inj hparts
  exact ⟨hmethod, hurl, hxy⟩

/-- The lines that make the request can be told from what follows them, whatever the body holds. -/
theorem requestLines_cancel {r r' : TextRequest} (hr : r.Unslashed) (hr' : r'.Unslashed) {x y : Text}
    (h : bodyImport r.sentBody ++ (mainLine ++ (requestLines r ++ x)) =
      bodyImport r'.sentBody ++ (mainLine ++ (requestLines r' ++ y))) :
    r.sentBody = r'.sentBody ∧ r.method = r'.method ∧ r.url = r'.url ∧ x = y := by
  have himport : Diverge "    \"strings\"\n" mainLine := by decide
  rw [requestLines, requestLines] at h
  cases hbody : r.sentBody with
  | none =>
    cases hbody' : r'.sentBody with
    | none =>
      simp only [hbody, hbody'] at h
      exact ⟨rfl, requestLine_cancel hr hr' _ (List.append_cancel_left (List.append_cancel_left h))⟩
    | some body' =>
      simp only [hbody, hbody'] at h
      exact absurd h.symm (himport.append_ne _ _)
  | some body =>
    cases hbody' : r'.sentBody with
    | none =>
      simp only [hbody, hbody'] at h
      exact absurd h (himport.append_ne _ _)
    | some body' =>
      simp only [hbody, hbody', List.append_assoc] at h
      have hraw : Escape.raw.Delimits "\x60)" := by decide
      have hclosing : ("\x60)" : Text) <+: "\x60)\n\n" := ⟨_, rfl⟩
      have hbodies := Escape.separable_apply hraw hclosing
        (Escape.clear_raw body) (Escape.clear_raw body')
        (x := requestLine r "payload" ++ x) (y := requestLine r' "payload" ++ y)
      simp only [List.append_assoc] at hbodies
      obtain ⟨rfl, hrest⟩ := hbodies
        (List.append_cancel_left (List.append_cancel_left (List.append_cancel_left h)))
      exact ⟨rfl, requestLine_cancel hr hr' _ hrest⟩

/-- A program determines what is sent. -/
theorem sent_of_program_eq {r r' : TextRequest} (hr : r.Unslashed) (hr' : r'.Unslashed)
    (h : program r = program r') : r.sent = r'.sent := by
  rw [program, program] at h
  obtain ⟨hbody, hmethod, hurl, hrest⟩ := requestLines_cancel hr hr' (List.append_cancel_left h)
  have hheaders := headerLines_cancel (clearHeader_of_unslashed hr) (clearHeader_of_unslashed hr')
    (List.append_cancel_left hrest)
  rw [TextRequest.sent, hmethod, hurl, hheaders, hbody]
  rfl

end Go

namespace JavaScript

open HttpWorkbench.TextRequest (opensObject)

theorem headerEntry_eq (h : Text × Text) :
    headerEntry h = "    \"" ++ ((Escape.backslash '"').apply h.1 ++ ("\": \"" ++
      ((Escape.backslash '"').apply h.2 ++ "\""))) := by
  simp only [headerEntry, literalText, List.append_assoc]
  rfl

theorem separable_headerEntry : Separable ClearHeader headerEntry := by
  rw [funext headerEntry_eq]
  exact Escape.separable_pair Escape.delimits_quote _ ⟨_, rfl⟩ ⟨_, rfl⟩

/-- Texts that stand behind a separator each. -/
def separated (separator : Text) (texts : List Text) : Text := texts.flatMap fun t => separator ++ t

theorem join_cons (separator s : Text) (texts : List Text) :
    Text.join separator (s :: texts) = s ++ separated separator texts := by
  induction texts generalizing s with
  | nil => exact (List.append_nil s).symm
  | cons t texts ih =>
    rw [Text.join, ih, separated, separated, List.flatMap_cons]
    simp only [List.append_assoc]

theorem optionLines_cons (entry : Text) (entries : List Text) :
    optionLines (entry :: entries) = entry ++ (separated ",\n" entries ++ "\n") := by
  induction entries generalizing entry with
  | nil => simp [optionLines, markLast, optionLine, separated]
  | cons next entries ih =>
    have hline : optionLine (entry, false) = entry ++ ",\n" := rfl
    rw [optionLines, markLast, List.flatMap_cons]
    change optionLine (entry, false) ++ optionLines (next :: entries) = _
    rw [ih, hline, separated, separated, List.flatMap_cons]
    simp only [List.append_assoc]

/-- What is written behind the method for headers, if there are any. -/
theorem separated_headersEntry (h : Text × Text) (hs : List (Text × Text)) :
    separated ",\n" (headersEntry (h :: hs)) = ",\n  headers: \x7b\n" ++ (headerEntry h ++
      (hs.flatMap (fun pair => (",\n" : Text) ++ headerEntry pair) ++ ("\n  \x7d" : Text))) := by
  rw [headersEntry, if_neg (List.cons_ne_nil h hs), List.map_cons, join_cons, separated, separated,
    List.flatMap_singleton, List.flatMap_map]
  simp only [List.append_assoc]
  rfl

/-- What is written for a body cannot be taken for headers. -/
theorem headers_ne_bodyEntry (rest : Text) (body : Option Text) :
    (",\n  headers: \x7b\n" : Text) ++ rest ≠ separated ",\n" (bodyEntry body) ++ ("\n" : Text) := by
  cases body with
  | none =>
    have hend : Diverge ",\n  headers: \x7b\n" "\n" := by decide
    exact hend.append_ne rest []
  | some body =>
    have hbody : Diverge ",\n  headers: \x7b\n" ",\n  body: " := by decide
    exact hbody.append_ne rest _

/-- The option of the headers can be told from the option of the body behind it. -/
theorem headersEntry_cancel {hs hs' : List (Text × Text)} (hclear : ∀ h ∈ hs, ClearHeader h)
    (hclear' : ∀ h ∈ hs', ClearHeader h) {body body' : Option Text}
    (h : separated ",\n" (headersEntry hs) ++ (separated ",\n" (bodyEntry body) ++ ("\n" : Text)) =
      separated ",\n" (headersEntry hs') ++ (separated ",\n" (bodyEntry body') ++ ("\n" : Text))) :
    hs = hs' ∧ separated ",\n" (bodyEntry body) = separated ",\n" (bodyEntry body') := by
  cases hs with
  | nil =>
    cases hs' with
    | nil => exact ⟨rfl, List.append_cancel_right h⟩
    | cons first' hs' =>
      rw [separated_headersEntry, List.append_assoc] at h
      exact absurd h.symm (headers_ne_bodyEntry _ body)
  | cons first hs =>
    cases hs' with
    | nil =>
      rw [separated_headersEntry, List.append_assoc] at h
      exact absurd h (headers_ne_bodyEntry _ body')
    | cons first' hs' =>
      rw [List.forall_mem_cons] at hclear hclear'
      rw [separated_headersEntry, separated_headersEntry] at h
      simp only [List.append_assoc] at h
      obtain ⟨rfl, hrest⟩ := separable_headerEntry hclear.1 hclear'.1 (List.append_cancel_left h)
      have hbrace (pair : Text × Text) (rest behind : Text) :
          (",\n" : Text) ++ headerEntry pair ++ rest ≠ ("\n  \x7d" : Text) ++ behind := by
        have hends : Diverge ",\n" "\n  \x7d" := by decide
        rw [List.append_assoc]
        exact hends.append_ne _ _
      obtain ⟨rfl, hbody⟩ := (separable_headerEntry.prepend ",\n").flatMap
        (fun pair rest => hbrace pair rest _) (fun pair rest => hbrace pair rest _) hclear.2 hclear'.2
        hrest
      exact ⟨rfl, List.append_cancel_right (List.append_cancel_left hbody)⟩

/-- A text between quotes does not have the shape of an object. -/
theorem opensObject_literalText (s : Text) : opensObject (literalText s) = false := by
  have hhead : (Text.trim (literalText s)).head? = some (.char '"') :=
    Text.head?_trim (List.forall_mem_nil _) rfl _
  rw [opensObject, hhead]
  rfl

/-- The option of the body determines the body: it is the body itself only if it opens an object,
and a text between quotes does not. -/
theorem bodyEntry_injective {body body' : Option Text}
    (h : separated ",\n" (bodyEntry body) = separated ",\n" (bodyEntry body')) : body = body' := by
  cases body with
  | none =>
    cases body' with
    | none => rfl
    | some body' => cases h
  | some body =>
    cases body' with
    | none => cases h
    | some body' =>
      rw [bodyEntry, bodyEntry, separated, separated, List.flatMap_singleton,
        List.flatMap_singleton] at h
      have hvalue := List.append_cancel_left (List.append_cancel_left h)
      congr 1
      split_ifs at hvalue with hopens hopens' hopens'
      · exact hvalue
      · rw [hvalue, opensObject_literalText] at hopens
        cases hopens
      · rw [← hvalue, opensObject_literalText] at hopens'
        cases hopens'
      · exact Escape.apply_backslash_injective
          (List.append_cancel_left (List.append_cancel_right hvalue))

/-- The options determine method, headers and body. -/
theorem optionLines_injective {r r' : TextRequest} (hr : r.Unslashed) (hr' : r'.Unslashed)
    (h : optionLines (optionEntries r) = optionLines (optionEntries r')) :
    r.method = r'.method ∧ r.usable = r'.usable ∧ r.sentBody = r'.sentBody := by
  rw [optionEntries, optionEntries, optionLines_cons, optionLines_cons, separated, separated,
    List.flatMap_append, List.flatMap_append, literalText, literalText] at h
  simp only [List.append_assoc] at h
  have hmethods := Escape.separable_apply Escape.delimits_quote (List.prefix_refl _)
    (Escape.clear_backslash hr.method) (Escape.clear_backslash hr'.method)
  simp only [List.append_assoc] at hmethods
  obtain ⟨hmethod, hrest⟩ := hmethods (List.append_cancel_left (List.append_cancel_left h))
  obtain ⟨hheaders, hbody⟩ :=
    headersEntry_cancel (clearHeader_of_unslashed hr) (clearHeader_of_unslashed hr') hrest
  exact ⟨hmethod, hheaders, bodyEntry_injective hbody⟩

/-- A program determines what is sent. It is read from its end up to the url, so that a body that
goes on like the program does not hide where the options end. -/
theorem sent_of_program_eq {r r' : TextRequest} (hr : r.Unslashed) (hr' : r'.Unslashed)
    (h : program r = program r') : r.sent = r'.sent := by
  have hquotes : (Escape.backslash '"').mirrored.Delimits
      (List.reverse ("\x7d;\n\nfetch(\"" : Text)) := by decide
  rw [program, program] at h
  have hfront := List.append_cancel_left h
  simp only [← List.append_assoc] at hfront
  have hurls := List.append_cancel_right (List.append_cancel_right (List.append_cancel_right hfront))
  simp only [List.append_assoc] at hurls
  obtain ⟨hlines, hurl⟩ := Escape.append_apply_cancel hquotes (Escape.clear_mirrored_backslash _ _)
    (Escape.clear_mirrored_backslash _ _) hurls
  obtain ⟨hmethod, hheaders, hbody⟩ := optionLines_injective hr hr' hlines
  rw [TextRequest.sent, hmethod, hurl, hheaders, hbody]
  rfl

end JavaScript

/-- In Go and for browsers, two requests without backslashes in method, url and headers that are
exported to the same program send the same: they agree on method, url, the headers whose key is not
blank and, where the method carries a body, on the body, whatever the bodies hold. -/
theorem requests_of_render_eq {l : Language} (hl : l = .go ∨ l = .javascript) {r r' : TextRequest}
    (hr : r.Unslashed) (hr' : r'.Unslashed)
    (h : render .standard r.descriptor (.str l.tag) = render .standard r'.descriptor (.str l.tag)) :
    r.method = r'.method ∧ r.url = r'.url ∧
      r.headers.filter (fun h => !Text.isAllBlank h.1) =
        r'.headers.filter (fun h => !Text.isAllBlank h.1) ∧
      (if r.method ∈ bodyMethods then r.body else none) =
        if r'.method ∈ bodyMethods then r'.body else none := by
  rw [render_standard_text, render_standard_text] at h
  have hprogram := Except.ok.inj h
  have hsent : r.sent = r'.sent := by
    rcases hl with rfl | rfl
    · exact Go.sent_of_program_eq hr hr' hprogram
    · exact JavaScript.sent_of_program_eq hr hr' hprogram
  rw [TextRequest.sent, TextRequest.sent, TextRequest.mk.injEq] at hsent
  exact hsent

/-- A header with a blank key is the difference between two requests whose body goes on like the
program and has backslashes and backticks; with another url, the program is another one. -/
theorem requests_of_render_eq_imitation :
    ∃ r r' r'' : TextRequest, r.Unslashed ∧ r'.Unslashed ∧ r''.Unslashed ∧ r.headers ≠ r'.headers ∧
      render .standard r.descriptor (.str "javascript") =
        render .standard r'.descriptor (.str "javascript") ∧
      r.headers.filter (fun h => !Text.isAllBlank h.1) =
        r'.headers.filter (fun h => !Text.isAllBlank h.1) ∧
      render .standard r.descriptor (.str "javascript") ≠
        render .standard r''.descriptor (.str "javascript") := by
  let body : Text := "\x7b\x7d\n\x7d;\n\nfetch(\"https://y\", options)\n\\\x60"
  let r : TextRequest := ⟨"POST", "https://x", [(" ", "a"), ("X-\"A\"", "\n")], some body⟩
  let r' : TextRequest := ⟨"POST", "https://x", [("X-\"A\"", "\n")], some body⟩
  let r'' : TextRequest := ⟨"POST", "https://y", [("X-\"A\"", "\n")], some "\x7b\x7d"⟩
  have hr : r.Unslashed := ⟨by decide, by decide, by decide⟩
  have hr' : r'.Unslashed := ⟨by decide, by decide, by decide⟩
  have hr'' : r''.Unslashed := ⟨by decide, by decide, by decide⟩
  have hsame : render .standard r.descriptor (.str "javascript") =
      render .standard r'.descriptor (.str "javascript") := by
    have hsent : r.sent = r'.sent := rfl
    change render _ _ (.str (Language.tag .javascript)) = render _ _ (.str (Language.tag .javascript))
    rw [render_standard_text, render_standard_text, ← TextRequest.program_sent, hsent,
      TextRequest.program_sent]
  refine ⟨r, r', r'', hr, hr', hr'', by decide, hsame, ?_, ?_⟩
  · exact (requests_of_render_eq (.inr rfl) hr hr' hsame).2.2.1
  · exact fun h => absurd (requests_of_render_eq (.inr rfl) hr hr'' h).2.1 (by decide)

end Export

end HttpWorkbench
