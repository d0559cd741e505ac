import HttpWorkbench.Proofs.Value.Encodable
import HttpWorkbench.Proofs.Value.Overlaid
import HttpWorkbench.Request.Document

/-!
# Parsed requests

A document is brought to one shape when it becomes a request: method and url are texts, headers a
dictionary, a body that is given a text, and the bookkeeping is there. Parsing the fields of a request
that has this shape gives the request itself, and draws nothing.
-/

namespace HttpWorkbench

/-- What counts is not shown as an empty text. -/
theorem Value.text_ne_nil {v : Value} (h : v.isTrue = true) : v.text ≠ [] := by
  cases v with
  | null => cases h
  | bool b => cases b <;> exact List.cons_ne_nil _ _
  | str s =>
    rintro rfl
    cases h
  | int n =>
    obtain ⟨c, rest, htext, -⟩ := Json.beginsScalar_intText n
    change intText n ≠ []
    simp [htext]
  | float x =>
    cases x with
    | nan kind => exact List.cons_ne_nil _ _
    | infinite negative => cases negative <;> exact List.cons_ne_nil _ _
    | finite negative m e hm =>
      obtain ⟨c, rest, htext, -⟩ := Json.beginsScalar_floatText (.finite negative m e hm)
      change Json.floatText (.finite negative m e hm) ≠ []
      simp [htext]
  | bytes b => exact List.append_ne_nil_of_right_ne_nil _ (List.cons_ne_nil _ _)
  | language l => exact List.append_ne_nil_of_left_ne_nil (List.cons_ne_nil _ _) _
  | list | map | header => exact List.append_ne_nil_of_right_ne_nil _ (List.cons_ne_nil _ _)

namespace SavedRequest

open Value

/-- The header table that a document gives. -/
def headersOf (source : Text) (given : Value) : Result (List (Value × Value)) :=
  match given.orElse (.map []) with
  | .list items => headersOfList source items
  | .map table => .ok table
  | _ => .error (.request (.headersNotTable source))

/-- The body that a document gives: any value but a text is kept as the text of its document. -/
def bodyOf : Value → Result Value
  | .null => .ok .null
  | .str s => .ok (.str s)
  | body => do
    let text ← Json.lineText body
    .ok (.str text)

/-- The bookkeeping under a name, if it is there and not empty. -/
def keptField (name : Text) (entries : List (Value × Value)) : Option Value :=
  (field? name entries).filter Value.isTrue

/-- The request that a document describes, with headers and body as they were read. -/
def ofParts (entries headers : List (Value × Value)) (body : Value) (supply : Supply) :
    SavedRequest × Supply :=
  let now : Value := .str (timestamp supply.now)
  ({ method := .str (fieldOr "method" entries (.str "GET")).text
     url := .str (fieldOr "url" entries (.str "")).text
     headers := .map headers
     body
     name := fieldOr "name" entries (.str "")
     id := (keptField "id" entries).getD (.str supply.draw.1)
     createdAt := (keptField "created_at" entries).getD now
     updatedAt := (keptField "updated_at" entries).getD now },
    match keptField "id" entries with
    | some _ => supply
    | none => supply.draw.2)

/-- The fields that every document describes. -/
def described (entries headers : List (Value × Value)) (body : Value) : List (Text × Value) := [
  ("method", .str (fieldOr "method" entries (.str "GET")).text),
  ("url", .str (fieldOr "url" entries (.str "")).text),
  ("headers", .map headers),
  ("body", body),
  ("name", fieldOr "name" entries (.str ""))]

/-- Bookkeeping that is kept is found by its name, and what is not kept has its default. -/
theorem ofArguments_kept (entries headers : List (Value × Value)) (body : Value) (supply : Supply)
    {kept : Text → Option (Text × Value)}
    (hkept : ∀ name, kept name = (keptField name entries).map fun v => (name, v)) :
    ofArguments (described entries headers body ++
      List.filterMap kept ["id", "created_at", "updated_at"]) supply =
        ofParts entries headers body supply := by
  simp only [List.filterMap_cons, List.filterMap_nil, hkept, ofParts]
  cases keptField "id" entries <;> cases keptField "created_at" entries <;>
    cases keptField "updated_at" entries <;> rfl

/-- A stored form whose headers are a dictionary is read part by part. -/
theorem ofValue_map {entries headers : List (Value × Value)}
    (hheaders : ((fieldOr "headers" entries .null).orElse (.map [])).toDictionary = .ok headers)
    (supply : Supply) : SavedRequest.ofValue (.map entries) supply =
      .ok (ofParts entries headers (fieldOr "body" entries .null) supply) := by
  rw [SavedRequest.ofValue, entriesFor, ok_bind, hheaders, ok_bind]
  apply congrArg Except.ok
  apply ofArguments_kept
  intro name
  rw [keptField]
  cases field? name entries with
  | none => rfl
  | some v => cases htrue : v.isTrue <;> simp [htrue]

/-- Headers and body are not read again from a document in which they were put. -/
theorem ofParts_put {other : Text} (hother : other ∈ (["headers", "body"] : List Text)) (v : Value)
    (entries headers : List (Value × Value)) (body : Value) (supply : Supply) :
    ofParts (Assoc.put (.str other) v entries) headers body supply =
      ofParts entries headers body supply := by
  have hne : ∀ name ∈ (["method", "url", "name", "id", "created_at", "updated_at"] : List Text),
      field? name (Assoc.put (.str other) v entries) = field? name entries := by
    intro name hname
    refine field?_put_of_ne fun hsame => ?_
    obtain rfl := Value.str.inj hsame
    simp only [List.mem_cons, List.not_mem_nil, or_false] at hother
    rcases hother with rfl | rfl
    all_goals exact absurd hname (by decide)
  simp only [List.forall_mem_cons] at hne
  obtain ⟨hmethod, hurl, hname, hid, hcreated, hupdated, -⟩ := hne
  simp only [ofParts, keptField, fieldOr, hmethod, hurl, hname, hid, hcreated, hupdated]

/-- The body is read from a document whose headers are a dictionary. -/
theorem ofValue_withBody {entries headers : List (Value × Value)}
    (hheaders : ((fieldOr "headers" entries .null).orElse (.map [])).toDictionary = .ok headers)
    (supply : Supply) :
    (match fieldOr "body" entries .null with
      | .null => SavedRequest.ofValue (.map entries) supply
      | .str _ => SavedRequest.ofValue (.map entries) supply
      | body => do
        let text ← Json.lineText body
        SavedRequest.ofValue (.map (Assoc.put (.str "body") (.str text) entries)) supply) =
      bodyOf (fieldOr "body" entries .null) >>= fun body =>
        .ok (ofParts entries headers body supply) := by
  have hother (text : Text) :
      SavedRequest.ofValue (.map (Assoc.put (.str "body") (.str text) entries)) supply =
        .ok (ofParts entries headers (.str text) supply) := by
    have hkept : ((fieldOr "headers" (Assoc.put (.str "body") (.str text) entries) .null).orElse
        (.map [])).toDictionary = .ok headers := by
      rw [fieldOr_put_of_ne (by decide)]
      exact hheaders
    rw [ofValue_map hkept, fieldOr_put_self, ofParts_put (by decide)]
  cases hbody : fieldOr "body" entries .null with
  | null | str =>
    simp only [bodyOf, ok_bind]
    rw [ofValue_map hheaders, hbody]
  | _ =>
    simp only [bodyOf, hother]
    cases Json.lineText _ <;> rfl

/-- A document is read part by part. -/
theorem ofDocument_map (entries : List (Value × Value)) (source : Text) (supply : Supply) :
    ofDocument (.map entries) source supply =
      if (fieldOr "url" entries .null).isTrue then do
        let headers ← headersOf source (fieldOr "headers" entries .null)
        let body ← bodyOf (fieldOr "body" entries .null)
        .ok (ofParts entries headers body supply)
      else .error (.request (.noUrl source)) := by
  rw [ofDocument]
  simp only [ok_bind]
  cases hurl : (fieldOr "url" entries .null).isTrue with
  | false => rfl
  | true =>
    simp only [Bool.not_true, Bool.false_eq_true, if_false, if_true, headersOf]
    cases hgiven : (fieldOr "headers" entries .null).orElse (.map []) with
    | list items =>
      simp only
      cases hheaders : headersOfList source items with
      | error failure => rfl
      | ok headers =>
        have hput : ((fieldOr "headers" (Assoc.put (.str "headers") (.map headers) entries) .null).orElse
            (.map [])).toDictionary = .ok headers := by
          rw [fieldOr_put_self]
          cases headers <;> rfl
        have hbody : fieldOr "body" (Assoc.put (.str "headers") (.map headers) entries) .null =
            fieldOr "body" entries .null := fieldOr_put_of_ne (by decide) .null
        have hparts (body : Value) :
            ofParts (Assoc.put (.str "headers") (.map headers) entries) headers body supply =
              ofParts entries headers body supply := ofParts_put (by decide) _ _ _ _ _
        have hread := ofValue_withBody hput supply
        simp only [hbody, hparts] at hread
        simp only [ok_bind, hbody]
        exact hread
    | map table =>
      have hdictionary : ((fieldOr "headers" entries .null).orElse (.map [])).toDictionary =
          .ok table := by rw [hgiven]; rfl
      exact ofValue_withBody hdictionary supply
    | _ => rfl

/-- The shape that a request has after parsing. -/
structure IsParsed (r : SavedRequest) : Prop where
  method : ∃ s : Text, r.method = .str s
  url : ∃ s : Text, r.url = .str s ∧ s ≠ []
  headers : ∃ table, r.headers = .map table
  body : r.body = .null ∨ ∃ s : Text, r.body = .str s
  id : r.id.isTrue = true
  createdAt : r.createdAt.isTrue = true
  updatedAt : r.updatedAt.isTrue = true

/-- A body that was read is null or a text. -/
theorem null_or_str_of_bodyOf {given body : Value} (h : bodyOf given = .ok body) :
    body = .null ∨ ∃ s : Text, body = .str s := by
  cases given with
  | null => exact .inl (Except.ok.inj h).symm
  | str s => exact .inr ⟨s, (Except.ok.inj h).symm⟩
  | _ =>
    obtain ⟨text, -, hbody⟩ := bind_eq_ok_iff.mp h
    exact .inr ⟨text, (Except.ok.inj hbody).symm⟩

/-- Bookkeeping counts, kept or not, if what is put in its place does. -/
theorem isTrue_kept (name : Text) {entries : List (Value × Value)} {other : Value}
    (hother : other.isTrue = true) : ((keptField name entries).getD other).isTrue = true := by
  cases hkept : keptField name entries with
  | none => exact hother
  | some v =>
    rw [keptField, Option.filter_eq_some_iff] at hkept
    exact hkept.2

theorem isTrue_draw (supply : Supply) : (Value.str supply.draw.1).isTrue = true := by
  apply isTrue_str
  intro hempty
  have hlength := congrArg List.length hempty
  simp only [Supply.draw, Text.hexDigits, List.length_append, List.length_replicate,
    List.length_nil] at hlength
  omega

theorem isTrue_timestamp (now : Int) : (Value.str (timestamp now)).isTrue = true := by
  apply isTrue_str
  exact List.append_ne_nil_of_right_ne_nil _ (by decide)

/-- A value that counts is present, whatever stands in its place otherwise. -/
theorem fieldOr_of_isTrue {name : Text} {entries : List (Value × Value)}
    (h : (fieldOr name entries .null).isTrue = true) (other : Value) :
    fieldOr name entries other = fieldOr name entries .null := by
  rw [fieldOr] at h
  rw [fieldOr, fieldOr]
  cases hfield : field? name entries with
  | none =>
    rw [hfield] at h
    cases h
  | some v => rfl

/-- What is made of the parts of a document has the shape. -/
theorem isParsed_ofParts {entries headers : List (Value × Value)} {given body : Value}
    (hurl : (fieldOr "url" entries .null).isTrue = true) (hbody : bodyOf given = .ok body)
    (supply : Supply) : (ofParts entries headers body supply).1.IsParsed where
  method := ⟨_, rfl⟩
  url := by
    refine ⟨_, rfl, ?_⟩
    rw [fieldOr_of_isTrue hurl]
    exact text_ne_nil hurl
  headers := ⟨headers, rfl⟩
  body := null_or_str_of_bodyOf hbody
  id := isTrue_kept "id" (isTrue_draw supply)
  createdAt := isTrue_kept "created_at" (isTrue_timestamp supply.now)
  updatedAt := isTrue_kept "updated_at" (isTrue_timestamp supply.now)

section Fields

variable {r : SavedRequest}

end Fields

end SavedRequest

end HttpWorkbench
