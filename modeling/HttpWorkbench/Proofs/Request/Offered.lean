import HttpWorkbench.Proofs.Export.EncodableProgram
import HttpWorkbench.Proofs.Json.Line
import HttpWorkbench.Proofs.Request.Saved
import HttpWorkbench.Proofs.Sending.ResolvedCall
import HttpWorkbench.Proofs.Storage.Offered

/-!
# Offered requests

What the document of a request is to be so that the request is made of texts: only its headers can
keep it from that, since other fields are turned into texts. Where the document is something else
than a request, loading it is refused.
-/

namespace HttpWorkbench

open Json (IsDocument)

/-- A dictionary of texts that can be encoded. -/
def IsTextTable (table : List (Value × Value)) : Prop :=
  ∀ e ∈ table, e.1.IsEncodableText ∧ e.2.IsEncodableText

theorem isTextTable_of_headers {headers : List (Text × Text)}
    (h : ∀ h ∈ headers, h.1.HasNoHalves ∧ h.2.HasNoHalves) :
    IsTextTable (headers.map fun h => (.str h.1, .str h.2)) := by
  rw [IsTextTable, List.forall_mem_map]
  exact fun e he => ⟨⟨e.1, rfl, (h e he).1⟩, ⟨e.2, rfl, (h e he).2⟩⟩

/-- Keys and values of a dictionary of texts, as texts. -/
theorem IsTextTable.exists_headers {table : List (Value × Value)} (h : IsTextTable table) :
    ∃ headers : List (Text × Text), table = headers.map (fun h => (.str h.1, .str h.2)) ∧
      ∀ h ∈ headers, h.1.HasNoHalves ∧ h.2.HasNoHalves := by
  induction table with
  | nil => exact ⟨[], rfl, nofun⟩
  | cons e table ih =>
    rw [IsTextTable, List.forall_mem_cons] at h
    obtain ⟨⟨⟨key, hkey, hkeyClean⟩, value, hvalue, hvalueClean⟩, hrest⟩ := h
    obtain ⟨headers, rfl, hclean⟩ := ih hrest
    refine ⟨(key, value) :: headers, ?_, List.forall_mem_cons.mpr ⟨⟨hkeyClean, hvalueClean⟩, hclean⟩⟩
    rw [List.map_cons, ← hkey, ← hvalue]

theorem IsTextTable.putAll {table pairs : List (Value × Value)} (htable : IsTextTable table)
    (hpairs : IsTextTable pairs) : IsTextTable (Assoc.putAll table pairs) := by
  intro e he
  rcases Assoc.mem_putAll_of_beq he with he | ⟨p, hp, hvalue, hkey⟩
  · exact htable e he
  · obtain ⟨⟨key, hpkey, hclean⟩, hpvalue⟩ := hpairs p hp
    rw [hvalue]
    rw [hpkey] at hkey
    refine ⟨⟨key, ?_, hclean⟩, hpvalue⟩
    rcases hkey with hkey | hkey
    · exact hkey
    · exact Value.eq_str_of_same hkey

namespace SavedRequest

open Value (fieldOr)

/-- The method, the url, the headers and the body are texts that can be encoded; there need not be a
body. -/
def HoldsTexts (r : SavedRequest) : Prop := ∃ t : TextRequest, t.IsEncodable ∧ t.saved r = r

theorem holdsTexts_of_parts {r : SavedRequest} {method url : Text} {table : List (Value × Value)}
    {body : Option Text} (hmethod : r.method = .str method) (hurl : r.url = .str url)
    (htable : r.headers = .map table) (hbody : r.body = .ofText? body) (hmethodClean : method.HasNoHalves)
    (hurlClean : url.HasNoHalves) (htexts : IsTextTable table)
    (hbodyClean : ∀ s ∈ body, s.HasNoHalves) : r.HoldsTexts := by
  obtain ⟨headers, rfl, hheaders⟩ := htexts.exists_headers
  refine ⟨⟨method, url, headers, body⟩, ⟨hmethodClean, hurlClean, hheaders, hbodyClean⟩, ?_⟩
  rw [TextRequest.saved]
  simp only [← hmethod, ← hurl, ← htable, ← hbody]

/-- What the document of a request is to be: keys and values of its headers are texts, whether they
are given as an object or as a list of objects. Anything but an object is refused anyway. -/
structure Fits (data : Value) : Prop where
  document : ∃ depth, IsDocument depth data
  table : ∀ entries table, data = .map entries → fieldOr "headers" entries .null = .map table →
    ∀ h ∈ table, ∃ s : Text, h.2 = .str s
  list : ∀ entries items es, data = .map entries → fieldOr "headers" entries .null = .list items →
    Value.map es ∈ items → (∃ s : Text, fieldOr "key" es (.str "") = .str s) ∧
      ∃ s : Text, fieldOr "value" es (.str "") = .str s

/-- A failure that tells why a request was not loaded. -/
def IsRefusal (failure : Failure) : Prop := ∃ reason, failure = .request reason

variable {n : Nat} {source : Text}

theorem yields_headersOfList {items : List Value} (hitems : ∀ v ∈ items, IsDocument n v)
    (htexts : ∀ es, Value.map es ∈ items → (∃ s : Text, fieldOr "key" es (.str "") = .str s) ∧
      ∃ s : Text, fieldOr "value" es (.str "") = .str s) :
    Yields IsTextTable IsRefusal (headersOfList source items) := by
  refine Yields.bind (r := fun tables => ∀ es ∈ tables, Value.map es ∈ items)
    (.mapM fun v hv => ?_) fun tables htables => ?_
  · cases v with
    | map es => exact hv
    | _ => exact ⟨_, rfl⟩
  · refine Yields.bind (r := IsTextTable) (.mapM fun es hes => ?_) fun pairs hpairs => ?_
    · obtain ⟨hkey, hvalue⟩ := htexts es (htables es hes)
      obtain ⟨m, rfl, -⟩ := (hitems _ (htables es hes)).of_map
      have hpart {name : Text} (h : ∃ s : Text, fieldOr name es (.str "") = .str s) :
          (fieldOr name es (.str "")).IsEncodableText :=
        ((hitems _ (htables es hes)).fieldOr name (Json.isDocument_ofString "" m)).isEncodableText h
      obtain ⟨key, hkeyText, -⟩ := hpart hkey
      have hasKey : (fieldOr "key" es (.str "")).asKey = .ok (fieldOr "key" es (.str "")) := by
        rw [hkeyText]
        rfl
      rw [hasKey]
      exact ⟨hpart hkey, hpart hvalue⟩
    · exact IsTextTable.putAll nofun hpairs

theorem yields_headersOf {given : Value} (hgiven : IsDocument n given)
    (htable : ∀ table, given = .map table → ∀ h ∈ table, ∃ s : Text, h.2 = .str s)
    (hlist : ∀ items es, given = .list items → Value.map es ∈ items →
      (∃ s : Text, fieldOr "key" es (.str "") = .str s) ∧
        ∃ s : Text, fieldOr "value" es (.str "") = .str s) :
    Yields IsTextTable IsRefusal (headersOf source given) := by
  unfold headersOf Value.orElse
  cases given.isTrue with
  | false => exact nofun
  | true =>
    cases given with
    | list items =>
      cases hgiven with
      | list hitems => exact yields_headersOfList hitems fun es hes => hlist items es rfl hes
    | map table =>
      obtain ⟨m, -, hentries⟩ := hgiven.of_map
      exact fun e he => ⟨(hentries e he).1, (hentries e he).2.isEncodableText (htable table rfl e he)⟩
    | _ => exact ⟨_, rfl⟩

theorem yields_bodyOf {given : Value} (hgiven : IsDocument n given) :
    Yields (fun body => ∃ text : Option Text, body = .ofText? text ∧ ∀ s ∈ text, s.HasNoHalves)
      IsRefusal (bodyOf given) := by
  cases given with
  | null => exact ⟨none, rfl, nofun⟩
  | str s => exact ⟨some s, rfl, fun _ h => Option.mem_some.mp h ▸ hgiven.hasNoHalves_text⟩
  -- Anything else is written on one line, which spells out every half.
  | _ =>
    obtain ⟨text, htext⟩ := hgiven.isData.exists_lineText
    change Yields _ _ (Json.lineText _ >>= fun text => Except.ok (Value.str text))
    rw [htext]
    exact ⟨some text, rfl, fun _ h => Option.mem_some.mp h ▸ Json.hasNoHalves_lineText htext⟩

/-- A document that fits is a request made of texts, or it is refused. -/
theorem Fits.yields_ofDocument {data : Value} (h : Fits data) (supply : Supply) :
    Yields (fun r => r.1.HoldsTexts) IsRefusal (ofDocument data source supply) := by
  obtain ⟨depth, hdata⟩ := h.document
  cases data with
  | map entries =>
    obtain ⟨m, rfl, -⟩ := hdata.of_map
    have hgiven (name : Text) : IsDocument m (fieldOr name entries .null) := hdata.fieldOr name .null
    have htext (name other : Text) (hother : other.HasNoHalves) :
        (fieldOr name entries (.str other)).text.HasNoHalves :=
      (hdata.fieldOr name (.str hother)).hasNoHalves_text
    rw [ofDocument_map]
    split
    · refine (yields_headersOf (hgiven "headers") (fun table => h.table entries table rfl)
        fun items es => h.list entries items es rfl).bind fun table htable =>
          (yields_bodyOf (hgiven "body")).bind fun body hbody => ?_
      obtain ⟨text, hbodyText, hclean⟩ := hbody
      exact holdsTexts_of_parts rfl rfl rfl hbodyText (htext "method" "GET" (.ofString "GET"))
        (htext "url" "" (.ofString "")) htable hclean
    · exact ⟨_, rfl⟩
  | _ => exact ⟨_, rfl⟩

/-- Loading a request from a file that offers one gives a request made of texts, or tells why not. -/
theorem yields_load {files : Files} {path : Path} (h : files.Offers Fits path) (supply : Supply) :
    Yields (fun r => r.1.HoldsTexts)
      (fun failure => IsRefusal failure ∨ ∃ shown, failure = .requestFileNotFound shown)
      (load files path supply) := by
  obtain ⟨there, hthere, hgiven⟩ := h.exists_pathExists
  rw [load, hthere, ok_bind]
  cases there with
  | false => exact .inr ⟨_, rfl⟩
  | true =>
    refine Yields.bind ((h.yields_readDocument (hgiven rfl) (documentFailures path)).imp
      (fun _ h => h) ?_) fun data hdata => (Fits.yields_ofDocument hdata supply).imp (fun _ h => h)
        fun _ => .inl
    rintro _ (⟨fault, rfl⟩ | ⟨fault, rfl⟩)
    · exact .inl ⟨_, rfl⟩
    · exact .inl ⟨_, rfl⟩

theorem yields_ofStream {text : Text} (h : Json.Offers Fits text) (source : Text) (supply : Supply) :
    Yields (fun r => r.1.HoldsTexts) IsRefusal (ofStream text source supply) := by
  unfold Json.Offers at h
  unfold ofStream
  cases hread : Json.read text with
  | ok data =>
    rw [hread] at h
    exact Fits.yields_ofDocument h supply
  | error fault =>
    rw [hread] at h
    obtain ⟨f, rfl⟩ := h
    exact ⟨_, rfl⟩

end SavedRequest

end HttpWorkbench
