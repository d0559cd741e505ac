import HttpWorkbench.Export.Program
import HttpWorkbench.Proofs.Value.Spread

/-!
# The shapes of a request

A row of headers can be given as headers, as pairs, as maps with a key and a value, or, if no key is
there twice, as one map. A descriptor is remade from its own map. And a saved request has the
descriptor of its stored form, in which headers are maps, as long as the stored form shows what the
request holds: a header whose parts are no texts comes back in words.
-/

namespace HttpWorkbench

/-- A header of two texts. -/
def Header.ofTexts (pair : Text × Text) : Header := ⟨.str pair.1, .str pair.2⟩

namespace Descriptor

/-- Each header has two texts. -/
def HasTexts (d : Descriptor) : Prop := ∃ pairs : List (Text × Text), d.headers = pairs.map .ofTexts

/-- A value for the headers of a saved request holds no headers, except as items of a list, and then of
two texts. -/
def HeadersAreTexts (headers : Value) : Prop :=
  headers.isPlain = true ∨ ∃ items, headers = .list items ∧
    ∀ item ∈ items, item.isPlain = true ∨ ∃ key value : Text, item = .header (.str key) (.str value)

section Rows

variable {pairs : List (Text × Text)} {items : List Value}

/-- The headers of a list are those of its items; an empty one has none. -/
theorem headersOfValue_list (items : List Value) :
    headersOfValue (.list items) = items.mapM headerOfItem := by
  cases items <;> rfl

end Rows

theorem headerOfItem_of_spread {depth : Nat} {item stored : Value}
    (hitem : item.isPlain = true ∨ ∃ key value : Text, item = .header (.str key) (.str value))
    (h : item.spread depth = .ok stored) : headerOfItem stored = headerOfItem item := by
  rcases hitem with hplain | ⟨key, value, rfl⟩
  · rw [Value.eq_of_spread item hplain h]
  · cases depth with
    | zero => cases h
    | succ depth =>
      rw [← Except.ok.inj h]
      rfl

theorem mapM_headerOfItem_of_spread {depth : Nat} {items stored : List Value}
    (hitems : ∀ item ∈ items,
      item.isPlain = true ∨ ∃ key value : Text, item = .header (.str key) (.str value))
    (h : Value.spreadItems depth items = .ok stored) :
    stored.mapM headerOfItem = items.mapM headerOfItem := by
  induction items generalizing stored with
  | nil => rw [← Except.ok.inj h]
  | cons item items ih =>
    rw [List.forall_mem_cons] at hitems
    obtain ⟨first, hfirst, h⟩ := bind_eq_ok_iff.mp h
    obtain ⟨others, hothers, h⟩ := bind_eq_ok_iff.mp h
    rw [← Except.ok.inj h, List.mapM_cons, List.mapM_cons, ih hitems.2 hothers,
      headerOfItem_of_spread hitems.1 hfirst]

/-- Headers are the same before and after they are stored. -/
theorem headersOfValue_of_spread {depth : Nat} {headers stored : Value}
    (hheaders : HeadersAreTexts headers) (h : headers.spread depth = .ok stored) :
    headersOfValue stored = headersOfValue headers := by
  rcases hheaders with hplain | ⟨items, rfl, hitems⟩
  · rw [Value.eq_of_spread headers hplain h]
  · cases depth with
    | zero => cases h
    | succ depth =>
      obtain ⟨others, hothers, h⟩ := bind_eq_ok_iff.mp h
      rw [← Except.ok.inj h, headersOfValue_list, headersOfValue_list,
        mapM_headerOfItem_of_spread hitems hothers]

/-- A saved request has the descriptor of its stored form. -/
theorem ofValue_of_toValue {r : SavedRequest} {method url : Text} {stored : Value}
    (hmethod : r.method = .str method) (hurl : r.url = .str url)
    (hheaders : HeadersAreTexts r.headers) (hbody : r.body.isPlain = true)
    (h : r.toValue = .ok stored) : ofValue stored = ofSaved r := by
  rw [SavedRequest.toValue] at h
  cases hfields : Value.storedFields r.fields with
  | error failure =>
    rw [hfields] at h
    cases h
  | ok entries =>
    rw [hfields] at h
    have hmethod' : Value.field? "method" entries = some r.method :=
      Value.field?_of_storedFields hfields "method" rfl (by rw [hmethod]; rfl)
    have hurl' : Value.field? "url" entries = some r.url :=
      Value.field?_of_storedFields hfields "url" rfl (by rw [hurl]; rfl)
    have hbody' : Value.field? "body" entries = some r.body :=
      Value.field?_of_storedFields hfields "body" rfl hbody
    obtain ⟨headers, hspread, hheaders'⟩ :=
      Value.exists_field?_of_storedFields hfields "headers" rfl
    rw [← Except.ok.inj h, ofValue, Value.entriesFor, ok_bind, Value.fieldOr, Value.fieldOr,
      Value.fieldOr, Value.fieldOr, hmethod', hurl', hbody', hheaders', ofSaved, make, make]
    simp only [Option.getD_some]
    rw [headersOfValue_of_spread hheaders hspread, hmethod, hurl]
    rfl

/-- A request whose fields are documents can be stored, and has the descriptor of its stored form. -/
theorem exists_toValue_of_isDocument {r : SavedRequest} {method url : Text}
    (hmethod : r.method = .str method) (hurl : r.url = .str url)
    (h : ∀ f ∈ r.fields, Json.IsDocument Value.storedDepth f.2) :
    ∃ stored, r.toValue = .ok stored ∧ ofValue stored = ofSaved r := by
  have hstored : r.toValue = .ok (.map (r.fields.map fun f => (.str f.1, f.2))) := by
    rw [SavedRequest.toValue, storedFields_eq h]
    rfl
  simp only [SavedRequest.fields, List.forall_mem_cons] at h
  obtain ⟨-, -, hheaders, hbody, -⟩ := h
  exact ⟨_, hstored,
    ofValue_of_toValue hmethod hurl (.inl hheaders.isPlain) hbody.isPlain hstored⟩

end Descriptor

end HttpWorkbench
