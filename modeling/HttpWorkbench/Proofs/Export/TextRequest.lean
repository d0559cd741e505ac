import HttpWorkbench.Export.Program
import HttpWorkbench.Proofs.Result
import HttpWorkbench.Proofs.Text.Trimmed

/-!
# Requests made of texts

A request whose method, url, headers and body are texts is exported without any failure of a field:
what is sent of it is its method and url, its headers with a key that is not blank, and its body
where the method carries one. The lemmas on templates say what a choice on the body and a repetition
over the headers write.
-/

namespace HttpWorkbench

/-- A request whose parts are texts. -/
structure TextRequest where
  method : Text
  url : Text
  headers : List (Text × Text)
  body : Option Text

namespace TextRequest

open Export

/-- A pair of texts as a header. -/
def header (h : Text × Text) : Header := ⟨.str h.1, .str h.2⟩

/-- The request as a descriptor. -/
def descriptor (r : TextRequest) : Descriptor :=
  ⟨.str r.method, .str r.url, r.headers.map header, .ofText? r.body⟩

/-- The headers whose key is not blank, in order. -/
def usable (r : TextRequest) : List (Text × Text) := r.headers.filter fun h => !Text.isAllBlank h.1

/-- The body, where the method carries one. -/
def sentBody (r : TextRequest) : Option Text := if r.method ∈ bodyMethods then r.body else none

theorem sentBody_of_mem {method : Text} (hmethod : method ∈ bodyMethods) (url : Text)
    (headers : List (Text × Text)) (body : Option Text) :
    (⟨method, url, headers, body⟩ : TextRequest).sentBody = body := if_pos hmethod

/-- Whether the first character of a text, blanks aside, opens an object. -/
def opensObject (s : Text) : Bool := (Text.trim s).head? == some '\x7b'

/-- The parts of the request that a program sends. -/
def parts (r : TextRequest) : SentParts where
  method := .str r.method
  url := .str r.url
  headers := r.usable.map header
  body := .ofText? r.sentBody
  isJson := r.sentBody.any opensObject

theorem isBlankKey_str (k : Text) : isBlankKey (.str k) = .ok (Text.isAllBlank k) := by
  change Except.ok (!(Value.str (Text.trim k)).isTrue) = _
  rw [Value.isTrue_trim, Bool.not_not]

/-- Exactly the headers with a blank key are passed over. -/
theorem usableHeaders_map (hs : List (Text × Text)) :
    usableHeaders (hs.map header) =
      .ok ((hs.filter fun h => !Text.isAllBlank h.1).map header) := by
  induction hs with
  | nil => rfl
  | cons h hs ih =>
    rw [List.map_cons, usableHeaders, show (header h).key = .str h.1 from rfl, isBlankKey_str, ih]
    by_cases hb : Text.isAllBlank h.1 = true <;> simp [hb]

theorem carriesBody_ofText? (method : Text) (body : Option Text) :
    carriesBody (.str method) (.ofText? body) =
      .ok (body.isSome && decide (method ∈ bodyMethods)) := by
  cases body with
  | none => rfl
  | some s =>
    rw [Option.isSome_some, Bool.true_and, ← List.contains_eq_mem]
    rfl

theorem isJsonBody_str (s : Text) : isJsonBody (.str s) = .ok (opensObject s) := rfl

/-- What is sent of a request made of texts. -/
theorem sentParts_descriptor (r : TextRequest) :
    SentParts.ofDescriptor r.descriptor = .ok r.parts := by
  rw [SentParts.ofDescriptor, show r.descriptor.method = .str r.method from rfl,
    show r.descriptor.body = .ofText? r.body from rfl, carriesBody_ofText?, ok_bind,
    show r.descriptor.headers = r.headers.map header from rfl, usableHeaders_map, ok_bind]
  by_cases hm : r.method ∈ bodyMethods
  · cases hb : r.body with
    | none => simp [hm, hb, parts, sentBody, usable, Value.ofText?, descriptor]
    | some s =>
      simp [hm, hb, parts, sentBody, usable, Value.ofText?, isJsonBody_str, descriptor]
  · simp [hm, parts, sentBody, usable, Value.ofText?, descriptor]

/-- What the templates of a language are filled from, where `more` is what the language adds. -/
def context (r : TextRequest) (more : List (Text × Value)) : Context :=
  .ofBindings (r.parts.bindings ++ more)

/-- A generator writes what its template writes in the context of the request. -/
theorem render_descriptor {g : Generator} {file : TemplateFile} {more : List (Text × Value)}
    {code : Text} (r : TextRequest) (hfile : g.file = some file)
    (hmore : g.extend r.descriptor r.parts = .ok more)
    (hcode : file.template.render (r.context more) = .ok code) : g.render r.descriptor = .ok code := by
  have hbindings : g.bindings r.descriptor = .ok (r.parts.bindings ++ more) := by
    rw [Generator.bindings, sentParts_descriptor, ok_bind, hmore, ok_bind]
  simp only [Generator.render, hfile, hbindings, ok_bind]
  rw [context] at hcode
  rw [hcode]

section Pieces

variable (r : TextRequest) (more : List (Text × Value))

theorem lookup_method : (r.context more).lookup "method" = .ok (.str r.method) := rfl

theorem lookup_url : (r.context more).lookup "url" = .ok (.str r.url) := rfl

theorem lookup_headers :
    (r.context more).lookup "headers" = .ok (.list (r.usable.map fun h => (header h).toValue)) :=
  congrArg (fun hs => Except.ok (Value.list hs)) List.map_map

theorem lookup_body : (r.context more).lookup "body" = .ok (.ofText? r.sentBody) := rfl

theorem lookup_body_of_some {body : Text} (hbody : r.sentBody = some body) :
    (r.context more).lookup "body" = .ok (.str body) := by
  rw [lookup_body, hbody]
  rfl

theorem lookup_json_body :
    (r.context more).lookup "json_body" = .ok (.bool (r.sentBody.any opensObject)) := rfl

theorem render_text (context : Context) (s : Text) : (Piece.text s).render context = .ok s := rfl

/-- A text that a name is bound to is written by the rule for it. -/
theorem render_quoted {context : Context} {name s : Text} (e : Escape)
    (h : context.lookup name = .ok (.str s)) :
    (Piece.quoted name e).render context = .ok (e.apply s) := by
  rw [Piece.quoted, Piece.render, Filling.value, h]
  rfl

theorem render_word {context : Context} {name s : Text} (h : context.lookup name = .ok (.str s)) :
    (Piece.word (.name name)).render context = .ok s := by
  rw [Piece.render, Filling.value, h]
  rfl

/-- A choice on the body takes the first way exactly when a body is sent. -/
theorem render_choice_body (yes no : List Piece) :
    (Piece.choice (.given "body") yes no).render (r.context more) =
      if r.sentBody.isSome then renderAll (r.context more) yes
      else renderAll (r.context more) no := by
  have hget : Assoc.get? ("body" : Text) (r.context more).bindings =
      some (.ofText? r.sentBody) := rfl
  rw [Piece.render, Condition.decide, hget]
  cases r.sentBody <;> rfl

/-- A choice on a row of headers takes the first way exactly when a header is sent. -/
theorem render_choice_headers (yes no : List Piece) :
    (Piece.choice (.holds "headers") yes no).render (r.context more) =
      if r.usable = [] then renderAll (r.context more) no
      else renderAll (r.context more) yes := by
  rw [Piece.render, Condition.decide, lookup_headers]
  cases r.usable <;> rfl

theorem render_choice_json (yes no : List Piece) :
    (Piece.choice (.holds "json_body") yes no).render (r.context more) =
      if r.sentBody.any opensObject then renderAll (r.context more) yes
      else renderAll (r.context more) no := by
  rw [Piece.render, Condition.decide, lookup_json_body]
  cases r.sentBody.any opensObject <;> rfl

theorem render_headerPart_key (context : Context) (h : Text × Text) (last : Bool) :
    (Piece.headerPart .key).render (context.atItem "header" (header h).toValue last) =
      .ok ((Escape.backslash '"').apply h.1) := rfl

theorem render_headerPart_value (context : Context) (h : Text × Text) (last : Bool) :
    (Piece.headerPart .value).render (context.atItem "header" (header h).toValue last) =
      .ok ((Escape.backslash '"').apply h.2) := rfl

/-- The fragment of a header has its key and its value in it, escaped for double quotes. -/
theorem renderAll_header (context : Context) (h : Text × Text) (last : Bool)
    (opening middle closing : Text) :
    renderAll (context.atItem "header" (header h).toValue last)
      [.text opening, .headerPart .key, .text middle, .headerPart .value, .text closing] =
        .ok (opening ++ ((Escape.backslash '"').apply h.1 ++ (middle ++
          ((Escape.backslash '"').apply h.2 ++ closing)))) := by
  simp only [renderAll, render_text, render_headerPart_key, render_headerPart_value, ok_bind,
    List.append_nil]

/-- Marking the last item does not look at the items. -/
theorem markLast_map {α β : Type} (f : α → β) (xs : List α) :
    markLast (xs.map f) = (markLast xs).map fun item => (f item.1, item.2) := by
  induction xs with
  | nil => rfl
  | cons x xs ih =>
    cases xs with
    | nil => rfl
    | cons y ys => simp only [List.map_cons, markLast] at ih ⊢; rw [ih]

/-- The items of a row with the last one marked are the items of the row. -/
theorem map_fst_markLast {α : Type} (xs : List α) : (markLast xs).map Prod.fst = xs := by
  induction xs with
  | nil => rfl
  | cons x xs ih =>
    cases xs with
    | nil => rfl
    | cons y ys => rw [markLast, List.map_cons, ih]

/-- A repetition over the headers writes a fragment for each header that is sent, in order; the
fragment may depend on whether the header is the last. -/
theorem render_eachHeader_marked {body : List Piece} {fragment : Text × Text → Bool → Text}
    (h : ∀ pair last, renderAll ((r.context more).atItem "header" (header pair).toValue last) body =
      .ok (fragment pair last)) :
    (Piece.eachHeader body).render (r.context more) =
      .ok ((markLast r.usable).flatMap fun item => fragment item.1 item.2) := by
  have hitems : (markLast (r.usable.map fun pair => (header pair).toValue)).mapM
      (fun item => renderAll ((r.context more).atItem "header" item.1 item.2) body) =
        .ok ((markLast r.usable).map fun item => fragment item.1 item.2) := by
    rw [markLast_map, List.mapM_map]
    exact mapM_eq_ok fun item _ => h item.1 item.2
  rw [Piece.eachHeader, Piece.render, lookup_headers, ok_bind]
  change ((markLast _).mapM _ >>= fun parts => Except.ok parts.flatten) = _
  rw [hitems, ok_bind, List.flatMap_def]

/-- A repetition whose fragments are the same at every place. -/
theorem render_eachHeader {body : List Piece} {fragment : Text × Text → Text}
    (h : ∀ pair last, renderAll ((r.context more).atItem "header" (header pair).toValue last) body =
      .ok (fragment pair)) :
    (Piece.eachHeader body).render (r.context more) = .ok (r.usable.flatMap fragment) := by
  rw [render_eachHeader_marked r more h, ← List.flatMap_map Prod.fst, map_fst_markLast]

end Pieces

end TextRequest

end HttpWorkbench
