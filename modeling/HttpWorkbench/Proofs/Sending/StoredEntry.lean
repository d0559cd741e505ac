import HttpWorkbench.Proofs.Clock.Chronology
import HttpWorkbench.Proofs.History.Stored
import HttpWorkbench.Proofs.Sending.Recording

/-!
# Recorded entries can be stored

What is recorded of an exchange can be stored when the parts of the request and of the response can
be: the identifier and the time that the history assigns always can.
-/

namespace HttpWorkbench

open Json (IsClean IsDocument)

/-! ## Identifiers and timestamps -/

theorem isClean_padded (width n : Nat) : IsClean (Timestamp.padded width n) :=
  .of_digits fun _ => Timestamp.isDigit_of_mem_padded

theorem isClean_timestamp (now : Int) : IsClean (timestamp now) := by
  have hfraction (n : Nat) : IsClean (if n = 0 then [] else
      .char '.' :: Timestamp.padded 6 (n * 1000)) := by
    split
    · exact .nil
    · exact .cons (by decide) (isClean_padded _ _)
  have hmark {mark a b : Text} (hmark : IsClean mark) (ha : IsClean a) (hb : IsClean b) :
      IsClean (a ++ mark ++ b) := (ha.append hmark).append hb
  have hdate (year month day : Nat) := hmark (by decide : IsClean "-")
    (hmark (by decide : IsClean "-") (isClean_padded 4 year) (isClean_padded 2 month))
    (isClean_padded 2 day)
  have htime {date : Text} (hdate : IsClean date) (hour minute second : Nat) :=
    hmark (by decide : IsClean ":") (hmark (by decide : IsClean ":")
      (hmark (by decide : IsClean "T") hdate (isClean_padded 2 hour)) (isClean_padded 2 minute))
      (isClean_padded 2 second)
  exact ((htime (hdate _ _ _) _ _ _).append (hfraction _)).append (by decide)

theorem isClean_identifier (n : Int) : IsClean (History.identifier n) :=
  .append (by decide) (Json.isClean_intText n)

theorem isDocument_text {depth : Nat} {s : Text} (h : IsClean s) : IsDocument depth (.str s) :=
  .str fun c hc => (h c hc).1

/-! ## The entry of an exchange -/

/-- A response whose parts are values of documents that do not nest too deep to be stored. -/
structure Response.IsStorable (response : Response) : Prop where
  status : IsDocument Value.storedDepth response.status
  statusText : IsDocument Value.storedDepth response.statusText
  elapsed : IsDocument Value.storedDepth (.float response.elapsed)
  body : IsDocument Value.storedDepth response.body
  headers : IsDocument Value.storedDepth (.map response.headers)

/-- A request whose parts are values of documents that do not nest too deep to be stored. Each of
its headers is an object in a list. -/
structure SavedRequest.IsStorable (r : SavedRequest) (headers : List (Value × Value)) : Prop where
  method : IsDocument Value.storedDepth r.method
  url : IsDocument Value.storedDepth r.url
  body : IsDocument Value.storedDepth r.body
  headers : ∀ h ∈ headers, IsDocument (Value.storedDepth - 2) h.1 ∧
    IsDocument (Value.storedDepth - 2) h.2

/-- The list of headers nests twice more than their keys and values. -/
theorem isDocument_headers {depth : Nat} {headers : List (Value × Value)}
    (h : ∀ h ∈ headers, IsDocument depth h.1 ∧ IsDocument depth h.2) :
    IsDocument (depth + 2)
      (.list (headers.map fun h => .ofFields [("key", h.1), ("value", h.2)])) := by
  refine .list fun v hv => ?_
  obtain ⟨header, hheader, rfl⟩ := List.mem_map.mp hv
  obtain ⟨hkey, hvalue⟩ := h header hheader
  refine .map (by decide : ([("key" : Text), "value"]).Nodup) ?_ ?_
  · simp only [List.forall_mem_cons]
    exact ⟨by decide, by decide, nofun⟩
  · simp only [List.forall_mem_cons]
    exact ⟨hkey, hvalue, nofun⟩

/-- An exchange between parts that can be stored leaves an entry that can be stored. -/
theorem Service.storable_entryFor? {r : SavedRequest} {headers : List (Value × Value)}
    {number now : Int} {result : Result Response} {e : HistoryEntry}
    (hrequest : r.IsStorable headers)
    (hresponse : ∀ response, result = .ok response → response.IsStorable)
    (hfailure : ∀ failure, result = .error failure → ∀ c ∈ failure.message, c.isHalf = false)
    (h : entryFor? r headers number now result = some e) : e.Storable := by
  have hid : IsDocument Value.storedDepth (.str (History.identifier number)) :=
    isDocument_text (isClean_identifier number)
  have htime : IsDocument Value.storedDepth (.str (timestamp now)) :=
    isDocument_text (isClean_timestamp now)
  have hheaders := isDocument_headers hrequest.headers
  have hnone : IsDocument Value.storedDepth (.map []) := .noFields
  have htags : IsDocument Value.storedDepth (.list []) := .noItems
  unfold entryFor? at h
  split at h <;> cases h <;>
    simp only [HistoryEntry.Storable, HistoryEntry.fields, List.forall_mem_cons]
  · have hr := hresponse _ rfl
    exact ⟨hid, hrequest.method, hrequest.url, htime, hheaders, hrequest.body, hr.status,
      hr.statusText, hr.elapsed, hr.body, hr.headers, htags, .null, List.forall_mem_nil _⟩
  · exact ⟨hid, hrequest.method, hrequest.url, htime, hheaders, hrequest.body, .null, .null, .null,
      .null, hnone, htags, .str (hfailure _ rfl), List.forall_mem_nil _⟩
  · exact ⟨hid, hrequest.method, hrequest.url, htime, hheaders, hrequest.body, .null, .null, .null,
      .null, hnone, htags, .str (hfailure _ rfl), List.forall_mem_nil _⟩

end HttpWorkbench
