import HttpWorkbench.Proofs.Export.CSharpProgram
import HttpWorkbench.Proofs.Export.GoProgram

/-!
# Bodies that cannot end their literals

In a verbatim string of C# a quote is written twice. In Go, a body is an expression: raw strings, which
have no escapes and cannot hold a backtick, joined with quoted strings that hold one. Both are read
back whole, whatever the body is; only carriage returns are lost, in Go.
-/

namespace HttpWorkbench.Export

namespace CSharp

/-- The value of a verbatim string whose opening quote stands before the text, and the text behind
it. -/
def insideVerbatim : Text → Option (Text × Text)
  | [] => none
  | [c] => if c = '"' then some ([], []) else none
  | c :: d :: rest =>
    if c = '"' then
      if d = '"' then (insideVerbatim rest).map fun (value, behind) => (.char '"' :: value, behind)
      else some ([], d :: rest)
    else (insideVerbatim (d :: rest)).map fun (value, behind) => (c :: value, behind)

/-- The value of the verbatim string at the front of a text, and the text behind it. -/
def readVerbatim : Text → Option (Text × Text)
  | .char '@' :: .char '"' :: rest => insideVerbatim rest
  | _ => none

/-- A quote that no other quote follows ends the string. -/
theorem insideVerbatim_end {behind : Text} (hbehind : behind.head? ≠ some '"') :
    insideVerbatim (.char '"' :: behind) = some ([], behind) := by
  cases behind with
  | nil => rfl
  | cons c behind =>
    have hc : c ≠ '"' := by simpa using hbehind
    simp [insideVerbatim, hc]

/-- A doubled quote stands for one. -/
theorem insideVerbatim_doubled (rest : Text) :
    insideVerbatim (.char '"' :: .char '"' :: rest) =
      (insideVerbatim rest).map fun (value, behind) => (.char '"' :: value, behind) := by
  simp [insideVerbatim]

/-- Every other character stands for itself. -/
theorem insideVerbatim_char {c : CodePoint} (hc : c ≠ '"') (rest : Text) :
    insideVerbatim (c :: rest) =
      (insideVerbatim rest).map fun (value, behind) => (c :: value, behind) := by
  cases rest <;> simp [insideVerbatim, hc]

/-- A text with its quotes doubled is read back in front of anything but a quote. -/
theorem insideVerbatim_apply (text : Text) {behind : Text} (hbehind : behind.head? ≠ some '"') :
    insideVerbatim (Escape.doubled.apply text ++ (.char '"' :: behind)) = some (text, behind) := by
  induction text with
  | nil => exact insideVerbatim_end hbehind
  | cons c text ih =>
    by_cases hc : c = '"'
    · have hmark : Escape.doubled.apply (.char '"' :: text) =
          .char '"' :: .char '"' :: Escape.doubled.apply text := Escape.apply_cons_mark _ text
      rw [hc, hmark, List.cons_append, List.cons_append, insideVerbatim_doubled, ih]
      rfl
    · rw [Escape.apply_cons_of_ne hc, List.cons_append, insideVerbatim_char hc, ih]
      rfl

/-- Programs for any two bodies differ in the verbatim string alone. -/
theorem exists_render_eq {method : Text} (hmethod : method ∈ bodyMethods) (url : Text)
    (headers : List (Text × Text)) :
    ∃ before after : Text, ∀ body,
      render .standard (TextRequest.descriptor ⟨method, url, headers, some body⟩) (.str "csharp") =
        .ok (before ++ ("@\"" ++ (Escape.doubled.apply body ++ ("\"" ++ (",\n" ++ after))))) := by
  refine ⟨opening ++ (headerLines (headers.filter fun h => !Text.isAllBlank h.1) ++
      ("        var content = new StringContent(\n" ++ "            ")),
    ("            Encoding.UTF8,\n" : Text) ++ ("            \"" ++
      ((Escape.backslash '"').apply (bodyType headers) ++ ("\"\n" ++ ("        );\n\n" ++
        (callLine ⟨method, url, headers, none⟩ "\", content);\n" ++ ending))))), fun body => ?_⟩
  have hsent := TextRequest.sentBody_of_mem hmethod url headers (some body)
  have hopening : ("            @\"" : Text) = "            " ++ "@\"" := rfl
  have hclosing : ("\",\n" : Text) = "\"" ++ ",\n" := rfl
  rw [render_program, program, sendLines, hsent]
  simp only [contentLines, hopening, hclosing, List.append_assoc]
  rfl

end CSharp

namespace Go

/-- Where a reader of joined strings is: in front of a string, in one of the two kinds, or behind
one. -/
inductive Reading where
  | before
  | raw
  | quoted
  | behind
  deriving DecidableEq, Repr

/-- The value of the strings that are joined with plus signs from a place on, and the text behind
them. A raw string ends at the next backtick and leaves out carriage returns; a quoted string has no
escapes and stays on its line. -/
def readFrom : Reading → Text → Option (Text × Text)
  | .behind, [] => some ([], [])
  | _, [] => none
  | .before, c :: rest =>
    if c = '\x60' then readFrom .raw rest
    else if c = '"' then readFrom .quoted rest
    else if c = ' ' ∨ c = '\t' ∨ c = '\r' ∨ c = '\n' then readFrom .before rest
    else none
  | .raw, c :: rest =>
    if c = '\x60' then readFrom .behind rest
    else if c = '\r' then readFrom .raw rest
    else (readFrom .raw rest).map fun (value, behind) => (c :: value, behind)
  | .quoted, c :: rest =>
    if c = '"' then readFrom .behind rest
    else if c = '\\' ∨ c = '\n' then none
    else (readFrom .quoted rest).map fun (value, behind) => (c :: value, behind)
  | .behind, c :: rest =>
    if c = '+' then readFrom .before rest
    else if c = ' ' ∨ c = '\t' ∨ c = '\r' then readFrom .behind rest
    else some ([], c :: rest)

/-- The value of the joined strings at the front of a text, and the text behind them. -/
def readStrings (source : Text) : Option (Text × Text) := readFrom .before source

/-- The text without its carriage returns. -/
def dropReturns (text : Text) : Text := text.filter fun c => c != '\r'

/-- A parenthesis ends the expression. -/
theorem readFrom_end {behind : Text} (hbehind : behind.head? = some ')') :
    readFrom .raw (.char '\x60' :: behind) = some ([], behind) := by
  obtain ⟨rest, rfl⟩ := List.head?_eq_some_iff.mp hbehind
  simp [readFrom]

/-- A backtick that is joined to two raw strings stands for itself. -/
theorem readFrom_joined (rest : Text) :
    readFrom .raw ("\x60 + \"\x60\" + \x60" ++ rest) =
      (readFrom .raw rest).map fun (value, behind) => (.char '\x60' :: value, behind) := by
  simp [readFrom, Text.ofString, Text.ofChars]

/-- A text with its backticks joined to raw strings is read back without its carriage returns. -/
theorem readFrom_apply (text : Text) {behind : Text} (hbehind : behind.head? = some ')') :
    readFrom .raw (Escape.raw.apply text ++ (.char '\x60' :: behind)) =
      some (dropReturns text, behind) := by
  induction text with
  | nil => exact readFrom_end hbehind
  | cons c text ih =>
    by_cases hc : c = '\x60'
    · have hmark : Escape.raw.apply (.char '\x60' :: text) =
          "\x60 + \"\x60\" + \x60" ++ Escape.raw.apply text := Escape.apply_cons_mark _ text
      rw [hc, hmark, List.append_assoc, readFrom_joined, ih]
      rfl
    · rw [Escape.apply_cons_of_ne hc, List.cons_append, readFrom, if_neg hc, ih]
      by_cases hreturn : c = '\r' <;> simp [hreturn, dropReturns]

/-- Nothing is lost exactly if there is no carriage return. -/
theorem dropReturns_eq_self_iff (text : Text) : dropReturns text = text ↔ .char '\r' ∉ text := by
  simp only [dropReturns, List.filter_eq_self, bne_iff_ne, ne_eq]
  exact ⟨fun h hmem => h _ hmem rfl, fun h c hc heq => h (heq ▸ hc)⟩

/-- Programs for any two bodies differ in the joined strings alone. -/
theorem exists_render_eq {method : Text} (hmethod : method ∈ bodyMethods) (url : Text)
    (headers : List (Text × Text)) :
    ∃ before after : Text, ∀ body,
      render .standard (TextRequest.descriptor ⟨method, url, headers, some body⟩) (.str "go") =
        .ok (before ++ ("\x60" ++ (Escape.raw.apply body ++ ("\x60" ++ (")\n\n" ++ after))))) := by
  refine ⟨opening ++ ("    \"strings\"\n" ++ (mainLine ++ "    payload := strings.NewReader(")),
    requestLine ⟨method, url, headers, none⟩ "payload" ++
      (checkLines.flatMap (fun line => line ++ ("\n" : Text)) ++
        (headerLines (headers.filter fun h => !Text.isAllBlank h.1) ++ ending)), fun body => ?_⟩
  have hsent := TextRequest.sentBody_of_mem hmethod url headers (some body)
  have hopening : ("    payload := strings.NewReader(\x60" : Text) =
      "    payload := strings.NewReader(" ++ "\x60" := rfl
  have hclosing : ("\x60)\n\n" : Text) = "\x60" ++ ")\n\n" := rfl
  rw [render_program, program, requestLines, hsent]
  simp only [bodyImport, Option.isSome_some, if_true, hopening, hclosing, List.append_assoc]
  rfl

end Go

/-- A body is read back from its literal in front of whatever may follow it: in C# as it is, in Go
without its carriage returns. So for every method that carries a body, the literal in the exported
program ends where the template ends it, and the rest of the program does not depend on the body. -/
theorem escapedBody_read (text behind : Text) :
    (behind.head? ≠ some '"' →
      CSharp.readVerbatim ("@\"" ++ (Escape.doubled.apply text ++ ("\"" ++ behind))) =
        some (text, behind)) ∧
    (behind.head? = some ')' →
      Go.readStrings ("\x60" ++ (Escape.raw.apply text ++ ("\x60" ++ behind))) =
        some (Go.dropReturns text, behind) ∧
      (Go.dropReturns text = text ↔ .char '\r' ∉ text)) ∧
    ∀ method ∈ bodyMethods, ∀ (url : Text) (headers : List (Text × Text)),
      (∃ before after : Text, after.head? ≠ some '"' ∧ ∀ body,
        render .standard (TextRequest.descriptor ⟨method, url, headers, some body⟩)
            (.str "csharp") =
          .ok (before ++ ("@\"" ++ (Escape.doubled.apply body ++ ("\"" ++ after)))) ∧
        CSharp.readVerbatim ("@\"" ++ (Escape.doubled.apply body ++ ("\"" ++ after))) =
          some (body, after)) ∧
      ∃ before after : Text, after.head? = some ')' ∧ ∀ body,
        render .standard (TextRequest.descriptor ⟨method, url, headers, some body⟩) (.str "go") =
          .ok (before ++ ("\x60" ++ (Escape.raw.apply body ++ ("\x60" ++ after)))) ∧
        Go.readStrings ("\x60" ++ (Escape.raw.apply body ++ ("\x60" ++ after))) =
          some (Go.dropReturns body, after) := by
  have hverbatim (text : Text) {behind : Text} (hbehind : behind.head? ≠ some '"') :
      CSharp.readVerbatim ("@\"" ++ (Escape.doubled.apply text ++ ("\"" ++ behind))) =
        some (text, behind) := CSharp.insideVerbatim_apply text hbehind
  have hjoined (text : Text) {behind : Text} (hbehind : behind.head? = some ')') :
      Go.readStrings ("\x60" ++ (Escape.raw.apply text ++ ("\x60" ++ behind))) =
        some (Go.dropReturns text, behind) := Go.readFrom_apply text hbehind
  refine ⟨hverbatim text, fun hbehind => ⟨hjoined text hbehind, Go.dropReturns_eq_self_iff text⟩,
    fun method hmethod url headers => ⟨?_, ?_⟩⟩
  · obtain ⟨before, after, hrender⟩ := CSharp.exists_render_eq hmethod url headers
    have hafter : (",\n" ++ after : Text).head? ≠ some (.char '"') := by
      change some (CodePoint.char ',') ≠ _
      decide
    exact ⟨before, ",\n" ++ after, hafter, fun body => ⟨hrender body, hverbatim body hafter⟩⟩
  · obtain ⟨before, after, hrender⟩ := Go.exists_render_eq hmethod url headers
    have hafter : (")\n\n" ++ after : Text).head? = some (.char ')') := rfl
    exact ⟨before, ")\n\n" ++ after, hafter, fun body => ⟨hrender body, hjoined body hafter⟩⟩

/-- A body of quotes, backticks and a carriage return at either end and in rows, in front of a
parenthesis and in two programs. -/
theorem escapedBody_read_quotes :
    CSharp.readVerbatim "@\"\"\"\"\"\x60\x60\r\"\"\")" =
      some (("\"\"\x60\x60\r\"" : Text), (")" : Text)) ∧
    Go.readStrings "\x60\"\"\x60 + \"\x60\" + \x60\x60 + \"\x60\" + \x60\r\"\x60)" =
      some (("\"\"\x60\x60\"" : Text), (")" : Text)) ∧
    ("POST" : Text) ∈ bodyMethods ∧
    (∃ before after : Text,
      render .standard (TextRequest.descriptor ⟨"POST", "https://x", [("A", "1")], some "\"\r"⟩)
          (.str "csharp") = .ok (before ++ ("@\"\"\"\r\"" ++ after)) ∧
      CSharp.readVerbatim ("@\"\"\"\r\"" ++ after) = some (("\"\r" : Text), after)) ∧
    ∃ before after : Text,
      render .standard (TextRequest.descriptor ⟨"POST", "https://x", [("A", "1")], some "\"\r"⟩)
          (.str "go") = .ok (before ++ ("\x60\"\r\x60" ++ after)) ∧
      Go.readStrings ("\x60\"\r\x60" ++ after) = some (("\"" : Text), after) := by
  obtain ⟨hverbatim, hjoined, hprograms⟩ := escapedBody_read "\"\"\x60\x60\r\"" ")"
  have hmethod : ("POST" : Text) ∈ bodyMethods := by decide
  obtain ⟨⟨before, after, -, hcsharp⟩, before', after', -, hgo⟩ :=
    hprograms "POST" hmethod "https://x" [("A", "1")]
  exact ⟨hverbatim (by decide), (hjoined rfl).1, hmethod, ⟨before, after, hcsharp "\"\r"⟩,
    before', after', hgo "\"\r"⟩

end HttpWorkbench.Export
