import HttpWorkbench.Proofs.Export.HeaderFragments
import HttpWorkbench.Proofs.Text.LowerCase
import HttpWorkbench.Proofs.Value.Encodable

/-!
# Programs that can be encoded

The program for a request made of texts that can be encoded can be encoded itself, in every language:
beside the parts of the request there are fixed texts in it, and what quoting and lower case make of
the parts has no halves either.
-/

namespace HttpWorkbench

namespace Text

/-! ## Lower case -/

/-- No letter is moved to a half. -/
theorem lowerRuns_avoid_halves :
    (lowerRuns.all fun r => r.avoids ⟨0xD800, 0xDFFF, 1, 0⟩) = true := by decide +kernel

theorem isHalf_of_mem_lowerLetter {c d : CodePoint} (hc : c.isHalf = false) (h : d ∈ lowerLetter c) :
    d.isHalf = false := by
  have hlisted : ∀ e ∈ lowerExpansions, ∀ n ∈ e.2, (CodePoint.ofValue n).isHalf = false := by decide
  rcases lowerLetter_cases h with ⟨e, he, n, hn, rfl⟩ | ⟨r, hr, m, himage, rfl⟩ | ⟨rfl, -⟩
  · exact hlisted e he n hn
  · have hmissed := CaseRun.image?_eq_none (List.all_eq_true.mp lowerRuns_fit r hr)
      (List.all_eq_true.mp lowerRuns_avoid_halves r hr) himage
    have houtside : ¬(0xD800 ≤ m ∧ m < 0xE000) := by
      intro hinside
      simp only [CaseRun.image?, Nat.mod_one, and_true] at hmissed
      rw [if_pos ⟨hinside.1, by omega⟩] at hmissed
      cases hmissed
    rw [CodePoint.ofValue, dif_neg houtside]
    rfl
  · exact hc

theorem hasNoHalves_lowerFrom (before : Text) {s : Text} (hs : s.HasNoHalves) :
    (lowerFrom before s).HasNoHalves := by
  induction s generalizing before with
  | nil => exact .nil
  | cons c rest ih =>
    rw [HasNoHalves, List.forall_mem_cons] at hs
    refine .append ?_ (ih _ hs.2)
    split
    · exact fun d hd => List.mem_singleton.mp hd ▸ rfl
    · exact fun d => isHalf_of_mem_lowerLetter hs.1

/-- Lower case has no halves. -/
theorem hasNoHalves_lower {s : Text} (hs : s.HasNoHalves) : (lower s).HasNoHalves :=
  hasNoHalves_lowerFrom [] hs

end Text

namespace Export

/-- Quoting a text replaces some of its characters. -/
theorem Escape.hasNoHalves_apply {e : Escape} (he : e.replacement.HasNoHalves) {s : Text}
    (hs : s.HasNoHalves) : (e.apply s).HasNoHalves := by
  induction s with
  | nil => exact .nil
  | cons c rest ih =>
    rw [Text.HasNoHalves, List.forall_mem_cons] at hs
    rw [apply_cons]
    refine .append ?_ (ih hs.2)
    split
    · exact he
    · exact fun d hd => List.mem_singleton.mp hd ▸ hs.1

end Export

open Export

/-- What a program is made from apart from its headers can be encoded. -/
structure Outline.IsEncodable (o : Outline) : Prop where
  method : o.method.HasNoHalves
  url : o.url.HasNoHalves
  body : ∀ s ∈ o.body, s.HasNoHalves
  declaredType : ∀ s ∈ o.declaredType, s.HasNoHalves

section Layouts

variable {o : Outline}

theorem Outline.hasNoHalves_choose {some none : Text} (hsome : some.HasNoHalves)
    (hnone : none.HasNoHalves) : (o.choose some none).HasNoHalves := by
  unfold choose
  split
  · exact hsome
  · exact hnone

theorem hasNoHalves_quoted {s : Text} (hs : s.HasNoHalves) :
    ((Escape.backslash '"').apply s).HasNoHalves := Escape.hasNoHalves_apply (by decide) hs

theorem Outline.IsEncodable.sentBody (h : o.IsEncodable) : ∀ s ∈ o.request.sentBody, s.HasNoHalves := by
  unfold TextRequest.sentBody
  split
  · exact h.body
  · nofun

open Text (hasNoHalves_append) in
/-- The fragment of a header that can be encoded can be encoded. -/
theorem Language.hasNoHalves_fragment (l : Language) {h : Text × Text} (hkey : h.1.HasNoHalves)
    (hvalue : h.2.HasNoHalves) : (l.layout.fragment h).HasNoHalves := by
  cases l <;>
    simp only [layout, Layout.curl, Layout.javaScript, Layout.python, Layout.php, Layout.cSharp,
      Layout.go, Curl.headerLine, JavaScript.headerEntry, JavaScript.literalText, Python.headerLine,
      Php.headerLine, CSharp.headerLine, Go.headerLine, hasNoHalves_append, Text.HasNoHalves.ofString,
      hasNoHalves_quoted hkey, hasNoHalves_quoted hvalue, and_self]

open Text (hasNoHalves_append) in
theorem Go.hasNoHalves_opening (h : o.IsEncodable) : (Layout.go.opening o).HasNoHalves := by
  have hlines : Text.HasNoHalves (Go.checkLines.flatMap fun line => line ++ ("\n" : Text)) := by
    decide
  have hmethod : o.request.method.HasNoHalves := h.method
  have hurl : o.request.url.HasNoHalves := h.url
  have hrequest (reader : Text) (hreader : reader.HasNoHalves) :
      (Go.requestLine o.request reader).HasNoHalves := by
    simp only [Go.requestLine, hasNoHalves_append, Text.HasNoHalves.ofString,
      hasNoHalves_quoted hmethod, hasNoHalves_quoted hurl, hreader, and_self]
  simp only [Layout.go, Go.opening, Go.bodyImport, Go.mainLine, Go.requestLines, hasNoHalves_append,
    Text.HasNoHalves.ofString, hlines, and_true, true_and]
  constructor
  · split <;> exact .ofString _
  · split
    · rename_i body hsent
      simp only [hasNoHalves_append, Text.HasNoHalves.ofString, hrequest,
        Escape.hasNoHalves_apply (e := .raw) (by decide) (h.sentBody body hsent), and_self]
    · exact hrequest _ (.ofString _)

open Text (hasNoHalves_append) in
/-- What stands in front of the headers can be encoded. -/
theorem Language.hasNoHalves_opening (l : Language) (h : o.IsEncodable) :
    (l.layout.opening o).HasNoHalves := by
  have hmethod : o.request.method.HasNoHalves := h.method
  have hurl : o.request.url.HasNoHalves := h.url
  cases l with
  | curl =>
    simp only [layout, Layout.curl, hasNoHalves_append, Text.HasNoHalves.ofString, h.method,
      hasNoHalves_quoted h.url, and_self]
  | javascript =>
    simp only [layout, Layout.javaScript, JavaScript.literalText, hasNoHalves_append,
      Text.HasNoHalves.ofString, hasNoHalves_quoted h.method, Outline.hasNoHalves_choose, and_self]
  | python =>
    simp only [layout, Layout.python, Python.imports, hasNoHalves_append, Text.HasNoHalves.ofString,
      Outline.hasNoHalves_choose, and_true]
    split <;> exact .ofString _
  | php =>
    simp only [layout, Layout.php, Php.opening, Php.fixedOptions, hasNoHalves_append,
      Text.HasNoHalves.ofString, Outline.hasNoHalves_choose, hasNoHalves_quoted hmethod,
      hasNoHalves_quoted hurl, and_self]
  | csharp => exact (by decide +kernel : CSharp.opening.HasNoHalves)
  | go => exact Go.hasNoHalves_opening h

theorem JavaScript.hasNoHalves_bodyEntry {body : Option Text} (hbody : ∀ s ∈ body, s.HasNoHalves) :
    ∀ s ∈ JavaScript.bodyEntry body, s.HasNoHalves := by
  cases body with
  | none => exact nofun
  | some body =>
    intro s hs
    rw [List.mem_singleton.mp hs]
    refine .append (.ofString _) ?_
    split
    · exact hbody body rfl
    · exact .append (.append (.ofString _) (hasNoHalves_quoted (hbody body rfl))) (.ofString _)

open Text (hasNoHalves_append) in
theorem Curl.hasNoHalves_closing (h : o.IsEncodable) : (Layout.curl.closing o).HasNoHalves := by
  simp only [Layout.curl]
  cases hsent : o.request.sentBody with
  | none => exact .nil
  | some body =>
    simp only [Curl.bodyLine, hasNoHalves_append, Text.HasNoHalves.ofString,
      Escape.hasNoHalves_apply (e := .shell) (by decide) (h.sentBody body hsent), and_self]

open Text (hasNoHalves_append) in
theorem JavaScript.hasNoHalves_closing (h : o.IsEncodable) :
    (Layout.javaScript.closing o).HasNoHalves := by
  have hentry : (JavaScript.separated ",\n"
      (JavaScript.bodyEntry o.request.sentBody)).HasNoHalves := by
    intro c hc
    obtain ⟨entry, hentry, hc⟩ := List.mem_flatMap.mp hc
    exact Text.HasNoHalves.append (.ofString _)
      (JavaScript.hasNoHalves_bodyEntry h.sentBody entry hentry) c hc
  simp only [Layout.javaScript, hasNoHalves_append, Text.HasNoHalves.ofString,
    Outline.hasNoHalves_choose, hasNoHalves_quoted h.url, hentry, and_self]

open Text (hasNoHalves_append) in
theorem Python.hasNoHalves_closing (h : o.IsEncodable) :
    (Layout.python.closing o).HasNoHalves := by
  have hlower : (Text.lower o.request.method).HasNoHalves := Text.hasNoHalves_lower h.method
  have hurl : o.request.url.HasNoHalves := h.url
  have hline (body : Text) (hclean : body.HasNoHalves) : (Python.bodyLine body).HasNoHalves := by
    unfold Python.bodyLine
    split
    · simp only [hasNoHalves_append, Text.HasNoHalves.ofString,
        Escape.hasNoHalves_apply (e := .backslash '\x27') (by decide) hclean, and_self]
    · simp only [hasNoHalves_append, Text.HasNoHalves.ofString, hasNoHalves_quoted hclean, and_self]
  have hkeyword (body : Option Text) : (Python.bodyKeyword body).HasNoHalves := by
    unfold Python.bodyKeyword
    split <;> exact .ofString _
  simp only [Layout.python, Python.ending, hasNoHalves_append, Text.HasNoHalves.ofString,
    Outline.hasNoHalves_choose, true_and, and_true]
  unfold Python.sendLines
  split
  · rename_i body hsent
    simp only [hasNoHalves_append, Text.HasNoHalves.ofString, hline body (h.sentBody body hsent),
      hlower, hasNoHalves_quoted hurl, hkeyword, and_self]
  · simp only [hasNoHalves_append, Text.HasNoHalves.ofString, hlower, hasNoHalves_quoted hurl,
      and_self]

open Text (hasNoHalves_append) in
theorem Php.hasNoHalves_closing (h : o.IsEncodable) : (Layout.php.closing o).HasNoHalves := by
  have hending : Php.ending.HasNoHalves := by decide +kernel
  simp only [Layout.php, hasNoHalves_append, Text.HasNoHalves.ofString, Outline.hasNoHalves_choose,
    hending, true_and, and_true]
  cases hsent : o.request.sentBody with
  | none => exact .ofString _
  | some body =>
    simp only [Php.bodyOption, hasNoHalves_append, Text.HasNoHalves.ofString,
      Escape.hasNoHalves_apply (e := .backslash '\x27') (by decide) (h.sentBody body hsent), and_self]

open Text (hasNoHalves_append) in
theorem CSharp.hasNoHalves_callLine (h : o.IsEncodable) {closing : Text}
    (hclosing : closing.HasNoHalves) : (CSharp.callLine o.request closing).HasNoHalves := by
  have hmethod : o.request.method.HasNoHalves := h.method
  have hurl : o.request.url.HasNoHalves := h.url
  have hname : (CSharp.clientMethodName o.request.method).HasNoHalves :=
    .append (hmethod.of_subset (List.take_subset _ _))
      (Text.hasNoHalves_lower (hmethod.of_subset (List.drop_subset _ _)))
  simp only [CSharp.callLine, hasNoHalves_append, Text.HasNoHalves.ofString, hname,
    hasNoHalves_quoted hurl, hclosing, and_self]

open Text (hasNoHalves_append) in
theorem CSharp.hasNoHalves_closing (h : o.IsEncodable) :
    (Layout.cSharp.closing o).HasNoHalves := by
  have hending : CSharp.ending.HasNoHalves := by decide +kernel
  have htype : (o.declaredType.getD CSharp.defaultContentType).HasNoHalves := by
    cases htype : o.declaredType with
    | none => exact .ofString _
    | some type => exact h.declaredType type htype
  simp only [Layout.cSharp, hasNoHalves_append, Text.HasNoHalves.ofString,
    Outline.hasNoHalves_choose, hending, true_and, and_true]
  split
  · rename_i body hsent
    simp only [CSharp.contentLines, hasNoHalves_append, Text.HasNoHalves.ofString,
      Escape.hasNoHalves_apply (e := .doubled) (by decide) (h.sentBody body hsent),
      hasNoHalves_quoted htype, CSharp.hasNoHalves_callLine h (.ofString _), and_self]
  · exact CSharp.hasNoHalves_callLine h (.ofString _)

open Text (hasNoHalves_append) in
theorem Go.hasNoHalves_closing (o : Outline) : (Layout.go.closing o).HasNoHalves := by
  have hending : Go.ending.HasNoHalves := by decide +kernel
  simp only [Layout.go, hasNoHalves_append, Text.HasNoHalves.ofString, Outline.hasNoHalves_choose,
    hending, and_self]

/-- What stands behind the headers can be encoded. -/
theorem Language.hasNoHalves_closing (l : Language) (h : o.IsEncodable) :
    (l.layout.closing o).HasNoHalves := by
  cases l with
  | curl => exact Curl.hasNoHalves_closing h
  | javascript => exact JavaScript.hasNoHalves_closing h
  | python => exact Python.hasNoHalves_closing h
  | php => exact Php.hasNoHalves_closing h
  | csharp => exact CSharp.hasNoHalves_closing h
  | go => exact Go.hasNoHalves_closing o

end Layouts

/-- A request made of texts that can be encoded. -/
structure TextRequest.IsEncodable (t : TextRequest) : Prop where
  method : t.method.HasNoHalves
  url : t.url.HasNoHalves
  headers : ∀ h ∈ t.headers, h.1.HasNoHalves ∧ h.2.HasNoHalves
  body : ∀ s ∈ t.body, s.HasNoHalves

namespace TextRequest

theorem IsEncodable.outline {r : TextRequest} (h : r.IsEncodable) (l : Language) :
    (r.outline l).IsEncodable where
  method := h.method
  url := h.url
  body := h.body
  declaredType := by
    intro type htype
    unfold TextRequest.outline at htype
    split at htype
    · obtain ⟨header, hfound, rfl⟩ := Option.map_eq_some_iff.mp htype
      exact (h.headers header (List.mem_of_find?_eq_some hfound)).2
    · cases htype

/-- In every language, the program for a request that can be encoded can be encoded. -/
theorem IsEncodable.hasNoHalves_program {r : TextRequest} (h : r.IsEncodable) (l : Language) :
    (l.program r).HasNoHalves := by
  have hseparator : l.layout.separator.HasNoHalves := by cases l <;> exact .ofString _
  have hfragments : ∀ t ∈ r.usable.map l.layout.fragment, t.HasNoHalves := by
    rw [List.forall_mem_map]
    intro header hheader
    have hparts := h.headers header (List.mem_filter.mp hheader).1
    exact l.hasNoHalves_fragment hparts.1 hparts.2
  rw [← r.program_layout l]
  exact (l.hasNoHalves_opening (h.outline l)).append
    ((Text.HasNoHalves.join hseparator hfragments).append (l.hasNoHalves_closing (h.outline l)))

end TextRequest

end HttpWorkbench
