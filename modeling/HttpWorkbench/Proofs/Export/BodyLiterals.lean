import HttpWorkbench.Proofs.Export.PhpLiteral
import HttpWorkbench.Proofs.Export.PhpScript
import HttpWorkbench.Proofs.Export.PythonLiteral
import HttpWorkbench.Proofs.Export.PythonScript

/-!
# Bodies in literals

A body that is the text of a JSON object is written between single quotes in PHP, and between tripled
ones in Python, with a backslash before each of its own single quotes and nothing else changed. The
literal always ends where its closing quotes stand. Since backslashes are not doubled, it stands for
the body only as long as the language keeps the escapes that the body has.
-/

namespace HttpWorkbench

namespace Json

theorem isBlank_of_isSpace {c : CodePoint} (h : isSpace c = true) : Text.isBlank c = true := by
  simp only [isSpace, Bool.or_eq_true, beq_iff_eq] at h
  rcases h with ((rfl | rfl) | rfl) | rfl <;> rfl

/-- The text of an object has the shape by which objects are told. -/
theorem IsObjectText.opensObject {body : Text} (h : IsObjectText body) :
    TextRequest.opensObject body = true := by
  obtain ⟨left, object, right, rfl, hleft, hobject, -⟩ := h
  obtain ⟨rest, rfl⟩ := hobject.object_eq_cons
  have hhead := Text.head?_trim (fun c hc => isBlank_of_isSpace (hleft c hc))
    (show Text.isBlank (.char '\x7b') = false from rfl) (rest ++ right)
  rw [TextRequest.opensObject, List.append_assoc, List.cons_append, hhead]
  rfl

end Json

namespace Export

/-- In Python, programs for bodies with the shape of an object differ in the literal alone. -/
theorem Python.exists_render_eq (method url : Text) (headers : List (Text × Text))
    (hmethod : method ∈ bodyMethods) :
    ∃ before after : Text, ∀ body, TextRequest.opensObject body = true →
      render .standard (TextRequest.descriptor ⟨method, url, headers, some body⟩) (.str "python") =
        .ok (before ++ ("data = json.loads('''" ++
          ((Escape.backslash '\x27').apply body ++ ("'''" ++ (")\n" ++ after))))) := by
  refine ⟨("import json\n\n" ++ "import requests\n\n") ++
      (headerTable (headers.filter fun h => !Text.isAllBlank h.1) ++ "\n"),
    "\nresponse = requests." ++ (Text.lower method ++ ("(\"" ++
      ((Escape.backslash '"').apply url ++ ("\", headers=headers, " ++
        ("json" ++ ("=data)\n" ++ ending)))))), fun body hbody => ?_⟩
  rw [render_script]
  have hsent := TextRequest.sentBody_of_mem hmethod url headers (some body)
  have hquotes : ("''')\n" : Text) = "'''" ++ ")\n" := rfl
  simp only [script, sendLines, hsent, imports, bodyLine, bodyKeyword, Option.any_some, hbody,
    if_true, hquotes, List.append_assoc]
  rfl

/-- In PHP, programs for any two bodies differ in the literal alone. -/
theorem Php.exists_render_eq (method url : Text) (headers : List (Text × Text))
    (hmethod : method ∈ bodyMethods) :
    ∃ before after : Text, ∀ body,
      render .standard (TextRequest.descriptor ⟨method, url, headers, some body⟩) (.str "php") =
        .ok (before ++ ("    CURLOPT_POSTFIELDS => '" ++
          ((Escape.backslash '\x27').apply body ++ ("'" ++ (",\n" ++ after))))) := by
  refine ⟨opening ++ (fixedOptions ⟨method, url, headers, none⟩ ++
      headerOption (headers.filter fun h => !Text.isAllBlank h.1)), ending, fun body => ?_⟩
  rw [render_script]
  have hsent := TextRequest.sentBody_of_mem hmethod url headers (some body)
  have hquotes : ("',\n" : Text) = "'" ++ ",\n" := rfl
  simp only [script, hsent, bodyOption, hquotes, List.append_assoc]
  rfl

/-- For every method that carries a body, the exported program has the body in a literal that ends
where its closing quotes stand, whatever escapes the body has. In Python it stands for the body
exactly if a backslash stands in the body only before a slash and the body has no carriage return; in
PHP, exactly if no two backslashes of the body stand side by side. -/
theorem bodyLiterals_denote (method url : Text) (headers : List (Text × Text))
    (hmethod : method ∈ bodyMethods) :
    (∃ before after : Text, ∀ body, Json.IsObjectText body → ∃ literal value : Text,
      render .standard (TextRequest.descriptor ⟨method, url, headers, some body⟩) (.str "python") =
        .ok (before ++ ("data = json.loads('''" ++ (literal ++ ("'''" ++ (")\n" ++ after))))) ∧
      Python.tripleQuoted.read (literal ++ ("'''" ++ (")\n" ++ after))) =
        some (value, ")\n" ++ after) ∧
      (value = body ↔ Python.OnlySlashEscapes body)) ∧
    (∃ before after : Text, ∀ body, Json.IsObjectText body → ∃ literal value : Text,
      render .standard (TextRequest.descriptor ⟨method, url, headers, some body⟩) (.str "php") =
        .ok (before ++ ("    CURLOPT_POSTFIELDS => '" ++ (literal ++ ("'" ++ (",\n" ++ after))))) ∧
      Php.singleQuoted.read (literal ++ ("'" ++ (",\n" ++ after))) = some (value, ",\n" ++ after) ∧
      (value = body ↔ Php.NoDoubledBackslash body)) := by
  constructor
  · obtain ⟨before, after, hrender⟩ := Python.exists_render_eq method url headers hmethod
    refine ⟨before, after, fun body hbody => ?_⟩
    obtain ⟨value, hread, -, hvalue⟩ := Python.denotes_escaped hbody.escaped (")\n" ++ after)
    exact ⟨_, value, hrender body hbody.opensObject, hread, hvalue⟩
  · obtain ⟨before, after, hrender⟩ := Php.exists_render_eq method url headers hmethod
    refine ⟨before, after, fun body hbody => ?_⟩
    obtain ⟨value, hread, -, hvalue⟩ := Php.denotes_escaped hbody.escaped (",\n" ++ after)
    exact ⟨_, value, hrender body, hread, hvalue⟩

/-- A slash that is escaped stays in both languages, and a single quote survives. -/
theorem bodyLiterals_denote_slash :
    ("PUT" : Text) ∈ bodyMethods ∧ Json.IsObjectText "\x7b\"a\":\"'\\/\"\x7d" ∧
    (∃ before literal after : Text,
      render .standard (TextRequest.descriptor ⟨"PUT", "https://x", [("A", "1")],
        some "\x7b\"a\":\"'\\/\"\x7d"⟩) (.str "python") =
          .ok (before ++ ("data = json.loads('''" ++ (literal ++ ("'''" ++ (")\n" ++ after))))) ∧
      Python.tripleQuoted.read (literal ++ ("'''" ++ (")\n" ++ after))) =
        some (("\x7b\"a\":\"'\\/\"\x7d" : Text), ")\n" ++ after)) ∧
    (∃ before literal after : Text,
      render .standard (TextRequest.descriptor ⟨"PUT", "https://x", [("A", "1")],
        some "\x7b\"a\":\"'\\/\"\x7d"⟩) (.str "php") =
          .ok (before ++ ("    CURLOPT_POSTFIELDS => '" ++ (literal ++ ("'" ++ (",\n" ++ after))))) ∧
      Php.singleQuoted.read (literal ++ ("'" ++ (",\n" ++ after))) =
        some (("\x7b\"a\":\"'\\/\"\x7d" : Text), ",\n" ++ after)) := by
  have hmethod : ("PUT" : Text) ∈ bodyMethods := by decide
  have hobject : Json.IsObjectText "\x7b\"a\":\"'\\/\"\x7d" :=
    Json.isObjectText_of_texts (.plain (by decide) (by decide) .nil)
      (.plain (by decide) (by decide) (.short (by decide) .nil))
  have hslash : Python.OnlySlashEscapes "\x7b\"a\":\"'\\/\"\x7d" := by
    simp [Text.ofString, Text.ofChars, Python.onlySlashEscapes_cons, Python.onlySlashEscapes_nil]
  have hdouble : Php.NoDoubledBackslash "\x7b\"a\":\"'\\/\"\x7d" := by
    simp [Text.ofString, Text.ofChars, Php.noDoubledBackslash_cons, Php.noDoubledBackslash_nil]
  obtain ⟨⟨before, after, hpython⟩, before', after', hphp⟩ :=
    bodyLiterals_denote "PUT" "https://x" [("A", "1")] hmethod
  obtain ⟨literal, value, hrender, hread, hsame⟩ := hpython _ hobject
  obtain ⟨literal', value', hrender', hread', hsame'⟩ := hphp _ hobject
  rw [hsame.mpr hslash] at hread
  rw [hsame'.mpr hdouble] at hread'
  exact ⟨hmethod, hobject, ⟨before, literal, after, hrender, hread⟩,
    before', literal', after', hrender', hread'⟩

/-- A doubled backslash, which is one backslash of the object's member, stands for one character of
the body in both languages, so neither program sends the body. -/
theorem bodyLiterals_drop_backslash :
    Json.IsObjectText "\x7b\"a\":\"\\\\\"\x7d" ∧
    (∃ before after : Text,
      render .standard (TextRequest.descriptor ⟨"POST", "https://x", [],
        some "\x7b\"a\":\"\\\\\"\x7d"⟩) (.str "python") =
          .ok (before ++ ("data = json.loads('''" ++ ("\x7b\"a\":\"\\\\\"\x7d''')\n" ++ after))) ∧
      Python.tripleQuoted.read ("\x7b\"a\":\"\\\\\"\x7d''')\n" ++ after) =
        some (("\x7b\"a\":\"\\\"\x7d" : Text), ")\n" ++ after)) ∧
    (∃ before after : Text,
      render .standard (TextRequest.descriptor ⟨"POST", "https://x", [],
        some "\x7b\"a\":\"\\\\\"\x7d"⟩) (.str "php") =
          .ok (before ++ ("    CURLOPT_POSTFIELDS => '" ++ ("\x7b\"a\":\"\\\\\"\x7d',\n" ++ after))) ∧
      Php.singleQuoted.read ("\x7b\"a\":\"\\\\\"\x7d',\n" ++ after) =
        some (("\x7b\"a\":\"\\\"\x7d" : Text), ",\n" ++ after)) ∧
    ("\x7b\"a\":\"\\\"\x7d" : Text) ≠ "\x7b\"a\":\"\\\\\"\x7d" := by
  have hmethod : ("POST" : Text) ∈ bodyMethods := by decide
  have hobject : Json.IsObjectText "\x7b\"a\":\"\\\\\"\x7d" :=
    Json.isObjectText_of_texts (.plain (by decide) (by decide) .nil) (.short (by decide) .nil)
  obtain ⟨before, after, hpython⟩ := Python.exists_render_eq "POST" "https://x" [] hmethod
  obtain ⟨before', after', hphp⟩ := Php.exists_render_eq "POST" "https://x" [] hmethod
  exact ⟨hobject, ⟨before, after, hpython _ hobject.opensObject, rfl⟩,
    ⟨before', after', hphp _, rfl⟩, by decide⟩

end Export

end HttpWorkbench
