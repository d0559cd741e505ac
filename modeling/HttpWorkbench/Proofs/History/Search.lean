import HttpWorkbench.History.Store
import HttpWorkbench.Proofs.Result
import HttpWorkbench.Proofs.Text.FinalSigma
import HttpWorkbench.Proofs.Text.Trimmed

/-!
# Searching a history

A query that is not blank finds the entries, in their order, whose url or method has it up to case:
both are brought to lower case before they are compared. An entry that has the query as it is written
is found whatever the entry is exactly if every capital sigma of the query has one form in lower case;
the first letters of a word in which a sigma stands last need not find the word.
-/

namespace HttpWorkbench

namespace HistoryEntry

/-- The url and the method are texts. -/
def HasTexts (e : HistoryEntry) : Prop :=
  ∃ url method : Text, e.url = .str url ∧ e.method = .str method

/-- The url or the method has the part as it is written. -/
def Holds (part : Text) (e : HistoryEntry) : Prop :=
  ∃ s : Text, (e.url = .str s ∨ e.method = .str s) ∧ part <:+: s

/-- The url or the method in lower case has the part in lower case. -/
def HoldsInLowerCase (part : Text) (e : HistoryEntry) : Prop :=
  ∃ s : Text, (e.url = .str s ∨ e.method = .str s) ∧ Text.lower part <:+: Text.lower s

/-- Whether the url or the method, shown and in lower case, has the needle. -/
def hasNeedle (needle : Text) (e : HistoryEntry) : Bool :=
  Text.occurs needle (Text.lower e.url.text) || Text.occurs needle (Text.lower e.method.text)

theorem hasNeedle_iff {part : Text} {e : HistoryEntry} (he : e.HasTexts) :
    e.hasNeedle (Text.lower part) = true ↔ e.HoldsInLowerCase part := by
  obtain ⟨url, method, hurl, hmethod⟩ := he
  simp only [hasNeedle, HoldsInLowerCase, hurl, hmethod, Value.text_str, Bool.or_eq_true,
    Text.occurs_iff_isInfix, Value.str.injEq, or_and_right, exists_or, exists_eq_left']

end HistoryEntry

namespace History

open HistoryEntry

theorem selectM_eq_filter {α : Type} {test : α → Result Bool} {p : α → Bool} {xs : List α}
    (h : ∀ x ∈ xs, test x = .ok (p x)) : selectM test xs = .ok (xs.filter p) := by
  induction xs with
  | nil => rfl
  | cons x xs ih =>
    rw [List.forall_mem_cons] at h
    rw [selectM, h.1, ok_bind, ih h.2, ok_bind, List.filter_cons]

theorem matchesNeedle_eq (needle : Text) {e : HistoryEntry} (he : e.HasTexts) :
    matchesNeedle (.str needle) e = .ok (e.hasNeedle needle) := by
  obtain ⟨url, method, hurl, hmethod⟩ := he
  have hlowered (s : Text) : (Value.str s).lowered = .ok (.str (Text.lower s)) := rfl
  have hin (s : Text) : (Value.str needle).isIn (.str s) = .ok (Text.occurs needle s) := rfl
  rw [matchesNeedle, hasNeedle, hurl, hmethod, hlowered, ok_bind, hin, ok_bind, hlowered, ok_bind,
    hin, Value.text_str, Value.text_str]
  cases Text.occurs needle (Text.lower url) <;> rfl

section Search

variable {h : History} (hentries : ∀ e ∈ h.entries, e.HasTexts) (query : Text)
include hentries

/-- A query is found in every entry when it is blank, and else in those that have its lower case. -/
theorem search_eq : h.search (.str query) =
    .ok (if Text.isAllBlank query then h.entries else h.entries.filter (hasNeedle (Text.lower query))) := by
  have htrimmed : (Value.str query).trimmed = .ok (.str (Text.trim query)) := rfl
  have hlowered : (Value.str query).lowered = .ok (.str (Text.lower query)) := rfl
  rw [search, htrimmed, ok_bind, Value.isTrue_trim, hlowered]
  cases Text.isAllBlank query with
  | true => rfl
  | false => exact selectM_eq_filter fun e he => matchesNeedle_eq _ (hentries e he)

end Search

/-- An entry that has a method and a url only. -/
def describedEntry (method url : Text) : HistoryEntry :=
  .ofArguments [("method", .str method), ("url", .str url)]

/-- Searching a history of entries with texts for urls and methods gives some of them in their order:
all of them for a blank query, else only such as have the query up to case. Every entry that has the
query as it is written is among them, in every such history, exactly if each capital sigma of the query
is decided within it. -/
theorem search_finds (query : Text) :
    (∀ h : History, (∀ e ∈ h.entries, e.HasTexts) → ∃ found, h.search (.str query) = .ok found ∧
      found.Sublist h.entries ∧ (Text.isAllBlank query = true → found = h.entries) ∧
      (Text.isAllBlank query = false → ∀ e ∈ found, e.HoldsInLowerCase query)) ∧
    ((∀ h : History, (∀ e ∈ h.entries, e.HasTexts) → ∀ found, h.search (.str query) = .ok found →
      ∀ e ∈ h.entries, e.Holds query → e ∈ found) ↔ Text.sigmasDecided [] query = true) := by
  refine ⟨fun h hentries => ⟨_, search_eq hentries query, ?_, ?_, ?_⟩, ?_, ?_⟩
  · split
    · exact List.Sublist.refl _
    · exact List.filter_sublist
  · exact fun hblank => if_pos hblank
  · intro hblank e he
    rw [hblank, if_neg Bool.false_ne_true, List.mem_filter] at he
    exact (hasNeedle_iff (hentries e he.1)).mp he.2
  · intro hall
    cases hblank : Text.isAllBlank query with
    | true =>
      refine Text.sigmasDecided_of_notMem (fun hsigma => ?_) []
      exact absurd (List.all_eq_true.mp hblank _ hsigma) (by decide)
    | false =>
      rw [Text.sigmasDecided_iff]
      intro text htext
      let h : History := ⟨[describedEntry text text], .int 1, 0⟩
      have hentries : ∀ e ∈ h.entries, e.HasTexts := List.forall_mem_singleton.mpr ⟨_, _, rfl, rfl⟩
      have hfound := hall h hentries _ (search_eq hentries query) _ List.mem_cons_self
        ⟨text, .inl rfl, htext⟩
      rw [hblank, if_neg Bool.false_ne_true, List.mem_filter,
        hasNeedle_iff (hentries _ List.mem_cons_self)] at hfound
      obtain ⟨-, s, hs | hs, hwithin⟩ := hfound
      · exact Value.str.inj hs ▸ hwithin
      · exact Value.str.inj hs ▸ hwithin
  · intro hdecided h hentries found hfound e he ⟨s, hs, hwithin⟩
    rw [search_eq hentries query, Except.ok.injEq] at hfound
    rw [← hfound]
    split
    · exact he
    · exact List.mem_filter.mpr ⟨he, (hasNeedle_iff (hentries e he)).mpr
        ⟨s, hs, Text.lower_isInfix hwithin hdecided⟩⟩

/-- A history of one request, whose url ends in a word that ends in a sigma. -/
def wordHistory : History := ⟨[describedEntry "GET" "https://x/ΟΔΥΣΣΕΥΣ"], .int 50, 0⟩

theorem hasTexts_wordHistory : ∀ e ∈ wordHistory.entries, e.HasTexts :=
  List.forall_mem_singleton.mpr ⟨_, _, rfl, rfl⟩

/-- The first letters of the word find it when the last of them is no sigma. -/
theorem search_finds_beginning_of_word :
    Text.sigmasDecided [] "ΟΔΥΣΣΕΥ" = true ∧
      wordHistory.search (.str "ΟΔΥΣΣΕΥ") = .ok wordHistory.entries := by
  have hdecided : Text.sigmasDecided [] "ΟΔΥΣΣΕΥ" = true := by decide +kernel
  obtain ⟨hsearch, hcomplete⟩ := search_finds "ΟΔΥΣΣΕΥ"
  obtain ⟨found, hfound, hsublist, -, -⟩ := hsearch wordHistory hasTexts_wordHistory
  have hthere := hcomplete.mpr hdecided wordHistory hasTexts_wordHistory found hfound _
    List.mem_cons_self ⟨"https://x/ΟΔΥΣΣΕΥΣ", .inl rfl, ⟨"https://x/", "Σ", rfl⟩⟩
  have hall : found = wordHistory.entries :=
    hsublist.antisymm (List.singleton_sublist.mpr hthere)
  exact ⟨hdecided, hall ▸ hfound⟩

/-- They do not find it when the last of them is a sigma, which ends the query as if it were a word. -/
theorem search_misses_beginning_of_word :
    (∀ e ∈ wordHistory.entries, e.HasTexts) ∧ (∀ e ∈ wordHistory.entries, e.Holds "ΟΔΥΣ") ∧
      wordHistory.entries ≠ [] ∧ wordHistory.search (.str "ΟΔΥΣ") = .ok [] := by
  have hmissed : (describedEntry "GET" "https://x/ΟΔΥΣΣΕΥΣ").hasNeedle (Text.lower "ΟΔΥΣ") = false := by
    decide +kernel
  refine ⟨hasTexts_wordHistory, List.forall_mem_singleton.mpr
    ⟨"https://x/ΟΔΥΣΣΕΥΣ", .inl rfl, ⟨"https://x/", "ΣΕΥΣ", rfl⟩⟩, List.cons_ne_nil _ _, ?_⟩
  rw [search_eq hasTexts_wordHistory, if_neg (by decide), wordHistory,
    List.filter_cons_of_neg (Bool.eq_false_iff.mp hmissed)]
  rfl

end History

end HttpWorkbench
