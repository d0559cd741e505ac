import HttpWorkbench.Proofs.Request.Offered
import Mathlib

/-!
# Decoded documents become requests or are refused

Whatever a text is read as, making a request of it gives one that has the shape of parsed requests, or
tells why the document is none. One kind of document is the exception: in a list of headers the entries
are checked, what stands under `key` in them is not, and a list or an object there keeps the header
table from being made.
-/

namespace HttpWorkbench

/-- Something was to become a key that is a list or an object. -/
def IsUnhashable (failure : Failure) : Prop :=
  ∃ kind : Text, (kind = "list" ∨ kind = "dict") ∧ failure = .misuse (.unhashable kind)

/-- What is read from a text and is no key is a list or an object. -/
theorem Json.IsData.failsOnly_asKey {v : Value} (h : IsData v) : FailsOnly IsUnhashable v.asKey := by
  cases h with
  | @scalar v h =>
    cases v with
    | null | bool | int | float | str => exact .ok _
    | _ => cases h
  | list => exact .error ⟨_, .inl rfl, rfl⟩
  | map => exact .error ⟨_, .inr rfl, rfl⟩

namespace SavedRequest

open Json (IsData)
open Value (fieldOr)

/-- Under `key` in a header stands something that can be a key; nothing stands for the empty text. -/
def HasHashableKey (header : List (Value × Value)) : Prop :=
  (fieldOr "key" header (.str "")).isKey = true

/-- The document has a url and a list of objects for headers, and what stands under `key` in one of them
cannot be a key. -/
def HasUnhashableKey (data : Value) : Prop :=
  ∃ (entries : List (Value × Value)) (headers : List (List (Value × Value))), data = .map entries ∧
    (fieldOr "url" entries .null).isTrue = true ∧
    fieldOr "headers" entries .null = .list (headers.map .map) ∧
    ∃ header ∈ headers, ¬HasHashableKey header

variable {source : Text}

/-- The name and the value of a header in a list. -/
def pairOf (header : List (Value × Value)) : Result (Value × Value) := do
  let key ← (fieldOr "key" header (.str "")).asKey
  .ok (key, fieldOr "value" header (.str ""))

theorem headersOfList_map (headers : List (List (Value × Value))) :
    headersOfList source (headers.map .map) = headers.mapM pairOf >>= fun pairs =>
      .ok (Assoc.ofList pairs) := by
  rw [headersOfList, mapM_map_eq_ok (g := Value.map) fun _ => rfl, ok_bind]
  rfl

theorem pairOf_of_hasHashableKey {header : List (Value × Value)} (h : HasHashableKey header) :
    pairOf header = .ok (fieldOr "key" header (.str ""), fieldOr "value" header (.str "")) := by
  rw [HasHashableKey] at h
  rw [pairOf, Value.asKey, if_pos h, ok_bind]

theorem pairOf_of_not_hasHashableKey {header : List (Value × Value)} (h : ¬HasHashableKey header) :
    pairOf header = misused (.unhashable (fieldOr "key" header (.str "")).unkeyedKind) := by
  rw [HasHashableKey] at h
  rw [pairOf, Value.asKey, if_neg h]
  rfl

/-- A list of headers is made a table or refused, if the keys in it can be keys. -/
theorem yields_headersOfList_of_hasHashableKey {items : List Value}
    (h : ∀ headers : List (List (Value × Value)), items = headers.map .map →
      ∀ header ∈ headers, HasHashableKey header) :
    Yields (fun _ => True) IsRefusal (headersOfList source items) := by
  by_cases hmaps : ∃ headers : List (List (Value × Value)), items = headers.map .map
  · obtain ⟨headers, rfl⟩ := hmaps
    rw [headersOfList_map, mapM_eq_ok fun header hheader =>
      pairOf_of_hasHashableKey (h headers rfl header hheader)]
    exact trivial
  · -- Some entry is no object, so that no key is looked at.
    rw [headersOfList]
    refine Yields.bind (r := fun _ => False) ?_ fun _ hfalse => hfalse.elim
    refine .of_failsOnly (.mapM fun item _ => ?_) fun tables htables => hmaps ⟨tables, ?_⟩
    · cases item with
      | map es => exact .ok es
      | _ => exact .error ⟨_, rfl⟩
    · refine eq_map_of_mapM_eq_ok (fun item es hes => ?_) htables
      cases item with
      | map es' => rw [Except.ok.inj hes]
      | _ => cases hes

/-- One key that cannot be a key keeps the table from being made. -/
theorem headersOfList_of_hasUnhashableKey (source : Text) {headers : List (List (Value × Value))}
    (hdata : ∀ header ∈ headers, IsData (.map header)) (h : ∃ header ∈ headers, ¬HasHashableKey header) :
    ∃ failure, IsUnhashable failure ∧ headersOfList source (headers.map .map) = .error failure := by
  obtain ⟨header, hheader, hkey⟩ := h
  obtain ⟨failure, hfailure⟩ := exists_error_of_mem hheader (pairOf_of_not_hasHashableKey hkey)
  have hunhashable : FailsOnly IsUnhashable (headers.mapM pairOf) := .mapM fun header hheader =>
    ((hdata header hheader).fieldOr "key" (.scalar rfl)).failsOnly_asKey.bind fun _ => .ok _
  refine ⟨failure, hunhashable failure hfailure, ?_⟩
  rw [headersOfList_map, hfailure]
  rfl

/-- Headers that a document gives are made a table or refused, if the keys in a list of them can be
keys. -/
theorem yields_headersOf_of_hasHashableKey {given : Value}
    (h : ∀ headers : List (List (Value × Value)), given = .list (headers.map .map) →
      ∀ header ∈ headers, HasHashableKey header) :
    Yields (fun _ => True) IsRefusal (headersOf source given) := by
  unfold headersOf Value.orElse
  cases given.isTrue with
  | false => exact trivial
  | true =>
    cases given with
    | list items =>
      exact yields_headersOfList_of_hasHashableKey fun headers hitems => h headers (by rw [hitems])
    | map table => exact trivial
    | _ => exact ⟨_, rfl⟩

/-- Any body that is read from a text is kept. -/
theorem exists_bodyOf {given : Value} (h : IsData given) : ∃ body, bodyOf given = .ok body := by
  cases given with
  | null | str => exact ⟨_, rfl⟩
  | _ =>
    obtain ⟨text, htext⟩ := h.exists_lineText
    refine ⟨.str text, ?_⟩
    simp only [bodyOf, htext, ok_bind]

theorem yields_ofDocument_of_not_hasUnhashableKey {data : Value} (hdata : IsData data)
    (h : ¬HasUnhashableKey data) (supply : Supply) :
    Yields (fun r => r.1.IsParsed) IsRefusal (ofDocument data source supply) := by
  cases data with
  | map entries =>
    rw [ofDocument_map]
    split
    · rename_i hurl
      obtain ⟨body, hbody⟩ := exists_bodyOf (hdata.fieldOr "body" .null)
      refine (yields_headersOf_of_hasHashableKey fun headers hheaders header hheader => ?_).bind
        fun table _ => ?_
      · by_contra hkey
        exact h ⟨entries, headers, rfl, hurl, hheaders, header, hheader, hkey⟩
      · rw [hbody]
        exact isParsed_ofParts hurl hbody supply
    · exact ⟨_, rfl⟩
  | _ => exact ⟨_, rfl⟩

theorem ofDocument_of_hasUnhashableKey {data : Value} (hdata : IsData data) (h : HasUnhashableKey data)
    (source : Text) (supply : Supply) :
    ∃ failure, IsUnhashable failure ∧ ofDocument data source supply = .error failure := by
  obtain ⟨entries, headers, rfl, hurl, hheaders, hkey⟩ := h
  have hlist : IsData (.list (headers.map .map)) := by
    rw [← hheaders]
    exact hdata.fieldOr "headers" .null
  obtain ⟨failure, hfailure, herror⟩ := headersOfList_of_hasUnhashableKey source
    (fun header hheader => hlist.item _ (List.mem_map_of_mem hheader)) hkey
  have hgiven : (Value.list (headers.map .map)).orElse (.map []) = .list (headers.map .map) := by
    obtain ⟨header, hheader, -⟩ := hkey
    cases headers with
    | nil => cases hheader
    | cons => rfl
  refine ⟨failure, hfailure, ?_⟩
  rw [ofDocument_map, if_pos hurl, hheaders, headersOf, hgiven]
  simp only [herror, error_bind]

/-- Whatever a text is read as becomes a request that has the shape of parsed ones, or is refused,
unless the key of some header in a list is itself a list or an object: then it fails in another way. -/
theorem parsed_or_refused_iff {text : Text} {data : Value} (hread : Json.read text = .ok data)
    (source : Text) (supply : Supply) :
    (Yields (fun r => r.1.IsParsed) IsRefusal (ofDocument data source supply) ↔ ¬HasUnhashableKey data) ∧
      (HasUnhashableKey data →
        ∃ failure, IsUnhashable failure ∧ ofDocument data source supply = .error failure) := by
  have hdata := Json.isData_read hread
  refine ⟨⟨fun hyields hunhashable => ?_, fun h => yields_ofDocument_of_not_hasUnhashableKey hdata h supply⟩,
    fun h => ofDocument_of_hasUnhashableKey hdata h source supply⟩
  obtain ⟨failure, ⟨kind, -, rfl⟩, hfailure⟩ := ofDocument_of_hasUnhashableKey hdata hunhashable source supply
  rw [hfailure] at hyields
  obtain ⟨reason, hreason⟩ := hyields
  cases hreason

/-- A document in which nothing is of the kind that it should be. -/
def oddDocument : Value :=
  .map [(.str "url", .int 1), (.str "method", .list [.int 2]),
    (.str "headers", .list [.map [(.str "key", .null), (.str "value", .map [])]]),
    (.str "body", .list [.bool true])]

/-- The text of the document. -/
def oddText : Text :=
  "\x7b\"url\": 1, \"method\": [2], \"headers\": [\x7b\"key\": null, \"value\": \x7b\x7d\x7d], \"body\": [true]\x7d"

/-- A url, a method, a key, a value and a body of other kinds than they should be are all taken. -/
theorem parsed_of_odd_parts :
    Json.read oddText = .ok oddDocument ∧ ¬HasUnhashableKey oddDocument ∧
      Yields (fun r => r.1.IsParsed) IsRefusal (ofDocument oddDocument "r.json" ⟨0, 0⟩) ∧
      ∃ r, ofDocument oddDocument "r.json" ⟨0, 0⟩ = .ok r := by
  have hread : Json.read oddText = .ok oddDocument := by cbv
  have hkeys : ¬HasUnhashableKey oddDocument := by
    rintro ⟨entries, headers, hdata, -, hheaders, header, hheader, hkey⟩
    obtain rfl := Value.map.inj hdata
    have hmap : [[(Value.str "key", Value.null), (.str "value", .map [])]].map Value.map =
        headers.map .map := Value.list.inj hheaders
    obtain rfl := List.map_injective_iff.mpr (fun _ _ => Value.map.inj) hmap
    obtain rfl := List.mem_singleton.mp hheader
    exact hkey rfl
  exact ⟨hread, hkeys, (parsed_or_refused_iff hread "r.json" ⟨0, 0⟩).1.mpr hkeys, _, rfl⟩

/-- A document whose only header has a list for its key. -/
def listedKeyDocument : Value :=
  .map [(.str "url", .str "https://x"),
    (.str "headers", .list [.map [(.str "key", .list [.str "A"]), (.str "value", .str "1")]])]

/-- A list under `key` is neither taken nor refused. -/
theorem unhashable_of_listed_key :
    Json.read "\x7b\"url\": \"https://x\", \"headers\": [\x7b\"key\": [\"A\"], \"value\": \"1\"\x7d]\x7d" =
        .ok listedKeyDocument ∧
      ofDocument listedKeyDocument "test" ⟨0, 0⟩ = .error (.misuse (.unhashable "list")) ∧
      ¬Yields (fun r => r.1.IsParsed) IsRefusal (ofDocument listedKeyDocument "test" ⟨0, 0⟩) := by
  refine ⟨by cbv, rfl, ?_⟩
  rintro ⟨reason, hreason⟩
  cases hreason

end SavedRequest

end HttpWorkbench
