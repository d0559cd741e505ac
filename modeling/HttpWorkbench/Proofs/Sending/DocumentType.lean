import HttpWorkbench.Proofs.Sending.ResolvedCall

/-!
# The type of a document

A body that is no text is sent as a document, and its headers name a type. The name of a header does
not distinguish letters by case, but a table does: a type that the caller names is found in one
spelling only, and beside any other one a second type is named.
-/

namespace HttpWorkbench

namespace Service

open EnvironmentStore (resolvedHeaders resolveEntries_texts)

/-- Whether the header names the type of a body, case aside. -/
def namesType (h : Value × Value) : Bool :=
  match h.1 with
  | .str name => Text.lower name == ("content-type" : Text)
  | _ => false

/-- The header that is added where no type is found. -/
def documentType : Value × Value := (.str "Content-Type", .str "application/json")

theorem namesType_documentType : namesType documentType = true := by decide

/-- The headers that should name the type of a document: the caller's own, or else the one that is
added. -/
def expectedTypes (headers : List (Value × Value)) : List (Value × Value) :=
  if headers.filter namesType = [] then [documentType] else headers.filter namesType

/-- The value is sent as a document: it is no text, no bytes and not null. -/
def IsDocument : Value → Prop
  | .null | .str _ | .bytes _ => False
  | _ => True

/-- The table of headers; null if there is none. -/
def tableOf : Option (List (Text × Text)) → Value
  | none => .null
  | some headers => .map (headers.map fun h => (.str h.1, .str h.2))

section Headers

variable {headers : List (Value × Value)}

/-- A type is added unless there is a header whose name has this spelling. -/
theorem withDocumentType_cases (headers : List (Value × Value)) :
    ((∃ h ∈ headers, h.1 = .str "Content-Type") ∧ withDocumentType headers = headers) ∨
      (∀ h ∈ headers, h.1 ≠ .str "Content-Type") ∧
        withDocumentType headers = headers ++ [documentType] := by
  unfold withDocumentType
  cases hthere : Assoc.contains (.str "Content-Type") headers with
  | true =>
    obtain ⟨h, hmem, hsame⟩ := List.any_eq_true.mp hthere
    exact .inl ⟨⟨h, hmem, Value.eq_str_of_same hsame⟩, rfl⟩
  | false =>
    refine .inr ⟨fun h hmem hname => ?_, Assoc.put_of_not_contains hthere⟩
    have hsame : (h.1 == Value.str "Content-Type") = true := by
      rw [hname]
      exact beq_self_eq_true ("Content-Type" : Text)
    rw [Assoc.contains, List.any_eq_false] at hthere
    exact hthere h hmem hsame

theorem prefix_withDocumentType (headers : List (Value × Value)) :
    headers <+: withDocumentType headers := by
  rcases withDocumentType_cases headers with ⟨-, heq⟩ | ⟨-, heq⟩ <;> rw [heq]
  exact List.prefix_append headers _

/-- The other headers stay. -/
theorem filter_not_namesType (headers : List (Value × Value)) :
    (withDocumentType headers).filter (fun h => !namesType h) =
      headers.filter fun h => !namesType h := by
  rcases withDocumentType_cases headers with ⟨-, heq⟩ | ⟨-, heq⟩ <;> rw [heq]
  simp [List.filter_append, namesType_documentType]

/-- With one type at most that the caller names, the type is as it should be exactly if the caller's
name for it has the one spelling that is looked for. -/
theorem filter_namesType_iff (hone : (headers.filter namesType).length ≤ 1) :
    (withDocumentType headers).filter namesType = expectedTypes headers ↔
      ∀ h ∈ headers, namesType h = true → h.1 = .str "Content-Type" := by
  rcases withDocumentType_cases headers with ⟨⟨h, hmem, hname⟩, heq⟩ | ⟨hother, heq⟩
  · have htype : namesType h = true := by
      rw [namesType, hname]
      decide
    have hin : h ∈ headers.filter namesType := List.mem_filter.mpr ⟨hmem, htype⟩
    obtain ⟨own, hown⟩ := List.length_eq_one_iff.mp
      (Nat.le_antisymm hone (List.length_pos_of_mem hin))
    refine iff_of_true ?_ fun g hg hgtype => ?_
    · rw [heq, expectedTypes, if_neg (List.ne_nil_of_mem hin)]
    · have hgin : g ∈ headers.filter namesType := List.mem_filter.mpr ⟨hg, hgtype⟩
      rw [hown, List.mem_singleton] at hin hgin
      rw [hgin, ← hin, hname]
  · rw [heq, List.filter_append, List.filter_cons_of_pos namesType_documentType, List.filter_nil,
      expectedTypes]
    constructor
    · intro h g hg hgtype
      have hgin : g ∈ headers.filter namesType := List.mem_filter.mpr ⟨hg, hgtype⟩
      rw [if_neg (List.ne_nil_of_mem hgin)] at h
      simpa using congrArg List.length h
    · intro h
      have hnone : headers.filter namesType = [] :=
        List.filter_eq_nil_iff.mpr fun g hg hgtype => hother g hg (h g hg hgtype)
      rw [hnone, if_pos rfl, List.nil_append]

end Headers

section Sent

variable {s : Service} {f : Text → Text}

/-- A document is not resolved, and its headers name its type. -/
theorem resolveBody_document {body : Value} (hbody : IsDocument body) :
    s.resolveBody body = .ok body := by
  cases body with
  | str text => cases hbody
  | _ => rfl

theorem encodeBody_document {body : Value} (hbody : IsDocument body) {text : Text}
    (htext : Json.lineText body = .ok text) (headers : List (Value × Value)) :
    encodeBody body headers = .ok (.str text, withDocumentType headers) := by
  cases body with
  | null => cases hbody
  | str _ => cases hbody
  | bytes _ => cases hbody
  | _ =>
    change (Json.lineText _ >>= fun text => Except.ok (Value.str text, withDocumentType headers)) = _
    rw [htext, ok_bind]

/-- What the transport is asked for a document, where its time is limited. -/
theorem prepare_document (hf : ∀ text, s.environments.resolve (.str text) = .ok (.str (f text)))
    (url : Text) (method : Value) (headers : Option (List (Text × Text))) {body : Value}
    (hbody : IsDocument body) {text : Text} (htext : Json.lineText body = .ok text)
    (timeout : Value) :
    s.prepare ⟨.str url, method, tableOf headers, body, timeout⟩ =
      (s.timeLimit timeout).map fun seconds =>
        { method
          url := .str (f url)
          headers := withDocumentType (resolvedHeaders f (headers.getD []))
          body := .str text
          timeout := seconds } := by
  cases headers with
  | none =>
    simp only [prepare, hf, ok_bind, resolveOptions, tableOf, resolveHeaders,
      resolveBody_document hbody, encodeBody_document hbody htext]
    cases s.timeLimit timeout <;> rfl
  | some headers =>
    have hheaders : s.resolveHeaders (tableOf (some headers)) =
        .ok (.map (resolvedHeaders f headers)) := by
      change (s.environments.resolveEntries (headers.map fun h => (.str h.1, .str h.2)) >>=
        fun entries => Except.ok (Value.map entries)) = _
      rw [resolveEntries_texts hf, ok_bind]
    simp only [prepare, hf, ok_bind, resolveOptions, hheaders, resolveBody_document hbody,
      encodeBody_document hbody htext]
    cases s.timeLimit timeout <;> rfl

/-- For every store that can be reached with texts for variables, a document is sent with the resolved
headers of the caller in their order, a type behind them if none is found, and the document's text
for a body; where the time limit is refused, nothing is sent. If the caller names one type at most,
exactly the caller's type, or the document's own where there is none, is named in what is sent,
provided that the caller's name for it is spelled `Content-Type`, and only then. -/
theorem send_document (hstore : s.environments.Reachable) (hvalues : s.environments.HasTextValues)
    (url : Text) (method : Value) (headers : Option (List (Text × Text))) {body : Value}
    (hbody : IsDocument body) {text : Text} (htext : Json.lineText body = .ok text)
    (timeout : Value) (outcome : Outcome) :
    ∃ (sentUrl : Text) (resolved : List (Value × Value)),
      s.environments.resolve (.str url) = .ok (.str sentUrl) ∧
      s.environments.resolveEntries ((headers.getD []).map fun h => (.str h.1, .str h.2)) =
        .ok resolved ∧
      (∀ failure, s.timeLimit timeout = .error failure →
        (s.send ⟨.str url, method, tableOf headers, body, timeout⟩ outcome).1 = []) ∧
      ∀ seconds, s.timeLimit timeout = .ok seconds →
        ∃ sent, (s.send ⟨.str url, method, tableOf headers, body, timeout⟩ outcome).1 =
            [⟨method, .str sentUrl, sent, .str text, seconds⟩] ∧
          resolved <+: sent ∧
          sent.filter (fun h => !namesType h) = resolved.filter (fun h => !namesType h) ∧
          ((resolved.filter namesType).length ≤ 1 →
            (sent.filter namesType = expectedTypes resolved ↔
              ∀ h ∈ resolved, namesType h = true → h.1 = .str "Content-Type")) := by
  obtain ⟨f, hf⟩ := hstore.exists_texts hvalues
  have hprepare := prepare_document hf url method headers hbody htext timeout
  refine ⟨f url, resolvedHeaders f (headers.getD []), hf url, resolveEntries_texts hf _, ?_, ?_⟩
  · intro failure hlimit
    rw [send, hprepare, hlimit]
    rfl
  · intro seconds hlimit
    refine ⟨withDocumentType (resolvedHeaders f (headers.getD [])), ?_, prefix_withDocumentType _,
      filter_not_namesType _, filter_namesType_iff⟩
    rw [send, hprepare, hlimit]
    rfl

/-- A list for a body, and a type whose name comes from a variable in the one spelling. -/
theorem send_document_named :
    ∃ (s : Service) (sent : List (Value × Value)) (seconds : Binary64),
      s.environments.Reachable ∧ s.environments.HasTextValues ∧
      IsDocument (.list [.int 1, .null]) ∧ Json.lineText (.list [.int 1, .null]) = .ok "[1, null]" ∧
      s.timeLimit .null = .ok seconds ∧
      (s.send ⟨.str "u", .str "PUT",
          tableOf (some [("A", "1"), ("\x7b\x7bT\x7d\x7d", "x")]), .list [.int 1, .null], .null⟩
          (.error .timedOut)).1 = [⟨.str "PUT", .str "u", sent, .str "[1, null]", seconds⟩] ∧
      sent.filter namesType = [(.str "Content-Type", .str "x")] ∧
      sent.filter (fun h => !namesType h) = [(.str "A", .str "1")] := by
  let store : EnvironmentStore :=
    ⟨[(.str "dev", [(.str "T", .str "Content-Type")])], some (.str "dev")⟩
  let s : Service := ⟨store, .int 30000, none⟩
  have hmake : EnvironmentStore.make (.map [(.str "dev", .map [(.str "T", .str "Content-Type")])])
      (.str "dev") = .ok store := rfl
  have hvalues : store.HasTextValues := by
    intro e he b hb
    obtain rfl := List.mem_singleton.mp he
    obtain rfl := List.mem_singleton.mp hb
    exact ⟨_, rfl⟩
  have hbody : IsDocument (.list [.int 1, .null]) := trivial
  have htext : Json.lineText (.list [.int 1, .null]) = .ok "[1, null]" := rfl
  have hamount : (s.effectiveTimeout .null).amount? = some ((30000 : Int) : ℚ) := rfl
  obtain ⟨m, e, h, hlimit, -⟩ := s.timeLimit_finite hamount (by norm_num)
    (Binary64.lt_overflowBound_of_le (by norm_num))
  obtain ⟨url, resolved, hurl, hresolved, -, hsent⟩ :=
    send_document (s := s) (.make hmake) hvalues "u" (.str "PUT")
      (some [("A", "1"), ("\x7b\x7bT\x7d\x7d", "x")]) hbody htext .null (.error .timedOut)
  obtain ⟨sent, hcalls, -, hothers, htype⟩ := hsent _ hlimit
  obtain rfl : "u" = url := Value.str.inj (Except.ok.inj hurl)
  obtain rfl : [(.str "A", .str "1"), (.str "Content-Type", .str "x")] = resolved :=
    Except.ok.inj hresolved
  refine ⟨s, sent, _, .make hmake, hvalues, hbody, htext, hlimit, hcalls, ?_, hothers⟩
  refine (htype (by decide)).mpr fun h hmem hnames => ?_
  rcases List.mem_cons.mp hmem with rfl | hmem
  · exact absurd hnames (by decide)
  · obtain rfl := List.mem_singleton.mp hmem
    rfl

/-- A type that is named in small letters, and a second one beside it. -/
theorem send_document_small_letters :
    ∃ (s : Service) (seconds : Binary64), s.environments = .empty ∧
      (s.send ⟨.str "https://x", .str "POST", tableOf (some [("content-type", "text/plain")]),
          .map [(.str "a", .int 1)], .null⟩ (.error .timedOut)).1 =
        [⟨.str "POST", .str "https://x", [(.str "content-type", .str "text/plain"),
          (.str "Content-Type", .str "application/json")], .str "\x7b\"a\": 1\x7d", seconds⟩] ∧
      ([(.str "content-type", .str "text/plain"),
        (.str "Content-Type", .str "application/json")] : List (Value × Value)).filter namesType ≠
          expectedTypes [(.str "content-type", .str "text/plain")] := by
  let s : Service := ⟨.empty, .int 30000, none⟩
  have hbody : IsDocument (.map [(.str "a", .int 1)]) := trivial
  have htext : Json.lineText (.map [(.str "a", .int 1)]) = .ok "\x7b\"a\": 1\x7d" := rfl
  have hamount : (s.effectiveTimeout .null).amount? = some ((30000 : Int) : ℚ) := rfl
  obtain ⟨m, e, h, hlimit, -⟩ := s.timeLimit_finite hamount (by norm_num)
    (Binary64.lt_overflowBound_of_le (by norm_num))
  have hprepare := prepare_document (s := s) (f := id) EnvironmentStore.resolve_empty "https://x"
    (.str "POST") (some [("content-type", "text/plain")]) hbody htext .null
  refine ⟨s, .finite false m e h, rfl, ?_, fun heq => absurd (congrArg List.length heq) (by decide)⟩
  rw [send, hprepare, hlimit]
  rfl

end Sent

end Service

end HttpWorkbench
