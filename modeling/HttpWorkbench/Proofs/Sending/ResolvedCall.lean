import HttpWorkbench.Proofs.Environment.Resolution
import HttpWorkbench.Proofs.Export.TextRequest
import HttpWorkbench.Proofs.Sending.Recording
import HttpWorkbench.Proofs.Sending.TimeLimit

/-!
# What is sent of a saved request

The service resolves the parts of a request one by one, and a store resolves a copy of it. For
requests made of texts both come to the same url, headers and body, so what is sent is what an export
of the resolved copy shows. Whether something is sent is decided by the limit on the time alone.
-/

namespace HttpWorkbench

/-- A saved request with the parts of a request made of texts. -/
def TextRequest.saved (r : TextRequest) (base : SavedRequest) : SavedRequest :=
  { base with
    method := .str r.method
    url := .str r.url
    headers := .map (r.headers.map fun h => (.str h.1, .str h.2))
    body := .ofText? r.body }

namespace EnvironmentStore

/-- With texts for variables, every text is resolved to a text. -/
theorem Reachable.exists_texts {store : EnvironmentStore} (hstore : store.Reachable)
    (hvalues : store.HasTextValues) :
    ∃ f : Text → Text, ∀ text, store.resolve (.str text) = .ok (.str (f text)) := by
  obtain ⟨table, hbindings, htexts⟩ := hstore.exists_bindings_forall hvalues
  choose f hf using fun text => exists_resolve_eq hbindings htexts text
  exact ⟨f, fun text => (hf text).1⟩

/-- Without variables, every text stays. -/
theorem resolve_empty (text : Text) : EnvironmentStore.empty.resolve (.str text) = .ok (.str text) := by
  have hbindings : EnvironmentStore.empty.bindings .null = .ok [] := rfl
  obtain ⟨result, hresolve, hresult⟩ := exists_resolve_eq hbindings nofun text
  rw [hresolve, hresult.unique (Placeholder.isSubstitution_self fun i o value ho => nofun)]

variable {store : EnvironmentStore} {f : Text → Text}

/-- The dictionary of headers whose keys and values are resolved. -/
def resolvedHeaders (f : Text → Text) (headers : List (Text × Text)) : List (Value × Value) :=
  Assoc.ofList (headers.map fun h => (.str (f h.1), .str (f h.2)))

theorem resolveEntries_texts (hf : ∀ text, store.resolve (.str text) = .ok (.str (f text)))
    (headers : List (Text × Text)) :
    store.resolveEntries (headers.map fun h => (.str h.1, .str h.2)) =
      .ok (resolvedHeaders f headers) := by
  have hentries : (headers.map fun h => ((.str h.1, .str h.2) : Value × Value)).mapM
      (fun e => do
        let k ← store.resolve e.1
        let v ← store.resolve e.2
        .ok (k, v)) = .ok (headers.map fun h => (.str (f h.1), .str (f h.2))) := by
    rw [List.mapM_map]
    refine mapM_eq_ok fun h _ => ?_
    simp only [Function.comp_apply, hf, ok_bind]
  change (List.mapM _ _ >>= fun pairs => Except.ok (Assoc.ofList pairs)) = _
  rw [hentries, ok_bind, resolvedHeaders]

/-- The copy of a request that a store resolves. -/
theorem resolveRequest_saved (hf : ∀ text, store.resolve (.str text) = .ok (.str (f text)))
    (r : TextRequest) (base : SavedRequest) :
    store.resolveRequest (r.saved base) = .ok { r.saved base with
      url := .str (f r.url)
      headers := .map (resolvedHeaders f r.headers)
      body := .ofText? (r.body.map f) } := by
  have hentries : (r.saved base).headers.entriesFor "items" =
      .ok (r.headers.map fun h => (.str h.1, .str h.2)) := rfl
  rw [resolveRequest, show (r.saved base).url = .str r.url from rfl, hf, ok_bind, hentries, ok_bind,
    resolveEntries_texts hf, ok_bind]
  rw [show (r.saved base).body = .ofText? r.body from rfl]
  cases r.body with
  | none => rfl
  | some text => simp only [Value.ofText?, hf, ok_bind, Option.map_some]

end EnvironmentStore

namespace Service

open Binary64 EnvironmentStore

variable {s : Service} {f : Text → Text}

/-- What the transport is asked for a request made of texts, where its time is limited. -/
theorem prepare_saved (hf : ∀ text, s.environments.resolve (.str text) = .ok (.str (f text)))
    (r : TextRequest) (base : SavedRequest) (timeout : Value) :
    s.prepare (outgoing (r.saved base) timeout) = (s.timeLimit timeout).map fun seconds =>
      { method := .str r.method
        url := .str (f r.url)
        headers := resolvedHeaders f r.headers
        body := .ofText? (r.body.map f)
        timeout := seconds } := by
  have hheaders : s.resolveHeaders (outgoing (r.saved base) timeout).headers =
      .ok (.map (resolvedHeaders f r.headers)) := by
    change (s.environments.resolveEntries (r.headers.map fun h => (.str h.1, .str h.2)) >>=
      fun entries => Except.ok (Value.map entries)) = _
    rw [resolveEntries_texts hf, ok_bind]
  have hbody : s.resolveBody (outgoing (r.saved base) timeout).body =
      .ok (.ofText? (r.body.map f)) := by
    cases hr : r.body with
    | none => simp only [outgoing, TextRequest.saved, hr]; rfl
    | some text => simp only [outgoing, TextRequest.saved, hr]; exact hf text
  have hencode (headers : List (Value × Value)) :
      encodeBody (.ofText? (r.body.map f)) headers = .ok (.ofText? (r.body.map f), headers) := by
    cases r.body <;> rfl
  rw [prepare, show (outgoing (r.saved base) timeout).url = .str r.url from rfl, hf, ok_bind,
    resolveOptions, hheaders, ok_bind, hbody, ok_bind, ok_bind]
  simp only [hencode, ok_bind]
  rw [show (outgoing (r.saved base) timeout).timeout = timeout from rfl]
  cases s.timeLimit timeout <;> rfl

/-- Sending a request made of texts, where the history can be recorded in: the transport is asked
once when the time is limited, and else never, and recording keeps the result. -/
theorem sendSaved_saved (hhistory : ∀ h, s.history = some h → ∃ limit : Int, h.limit = .int limit)
    (r : TextRequest) (base : SavedRequest) (timeout : Value) (outcome : Outcome) (now : Int) :
    s.sendSaved (r.saved base) timeout outcome now =
      let headers := r.headers.map fun h => (.str h.1, .str h.2)
      let (calls, result) := s.send (outgoing (r.saved base) timeout) outcome
      (calls,
        { s with history := s.history.map fun h => historyAfter h (r.saved base) headers now result },
        result) := by
  have hentries : (r.saved base).headers.entriesFor "items" =
      .ok (r.headers.map fun h => (.str h.1, .str h.2)) := rfl
  simp only [sendSaved, hentries]
  cases hh : s.history with
  | none =>
    rw [record_of_none s hh, Option.map_none, ← hh]
  | some h =>
    obtain ⟨limit, hlimit⟩ := hhistory h hh
    rw [record_eq s hh hlimit, Option.map_some]

end Service

end HttpWorkbench
