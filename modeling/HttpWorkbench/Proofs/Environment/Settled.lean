import HttpWorkbench.Proofs.Environment.Resolution

/-!
# Resolved texts are settled

A value without braces that has a character which cannot stand inside a placeholder is no part of one,
whatever stands around it. Where all values of a table are so, a placeholder in a resolved text lies in
what was kept of the text before, where it was one already and was not known. So nothing is replaced
when the text is resolved again.
-/

namespace HttpWorkbench

namespace Placeholder

/-- A value that is no part of a placeholder: it has no brace, and a character that is neither a blank
nor a character of names. -/
structure IsInert (value : Text) : Prop where
  opening : .char '\x7b' ∉ value
  closing : .char '\x7d' ∉ value
  foreign : ∃ c ∈ value, Text.isBlank c = false ∧ isNameChar c = false

/-- A text without known placeholders. -/
def IsSettled (table : VariableTable) (text : Text) : Prop :=
  ∀ (i : Nat) (o : Occurrence), StandsAt text i o → known table o = none

variable {table : VariableTable}

/-- A settled text is its own substitution. -/
theorem IsSettled.isSubstitution {text : Text} (h : IsSettled table text) :
    IsSubstitution table text text := by
  refine isSubstitution_self fun i o value ho hvalue => ?_
  have hknown := h i o ho
  rw [known_eq_some_iff.mpr hvalue] at hknown
  cases hknown

/-- A character of a placeholder: a brace, a blank or a character of names. -/
def IsPart (c : CodePoint) : Prop :=
  c = '\x7b' ∨ c = '\x7d' ∨ Text.isBlank c = true ∨ isNameChar c = true

/-- A placeholder is made of such characters and ends in a brace. -/
theorem Occurrence.IsPlaceholder.exists_ending {o : Occurrence} (ho : o.IsPlaceholder) :
    ∃ front, o.whole = front ++ [.char '\x7d'] ∧ ∀ c ∈ front, IsPart c := by
  obtain ⟨hname, left, right, hleft, hright, hwhole⟩ := ho
  refine ⟨.char '\x7b' :: .char '\x7b' :: (left ++ o.name ++ right ++ [.char '\x7d']), ?_, ?_⟩
  · rw [hwhole]
    simp only [List.cons_append, List.append_assoc, List.nil_append]
  · intro c hc
    simp only [List.mem_cons, List.mem_append, List.not_mem_nil, or_false] at hc
    rcases hc with rfl | rfl | ((hc | hc) | hc) | rfl
    · exact .inl rfl
    · exact .inl rfl
    · exact .inr (.inr (.inl (hleft c hc)))
    · exact .inr (.inr (.inr (hname.isNameChar c hc)))
    · exact .inr (.inr (.inl (hright c hc)))
    · exact .inr (.inl rfl)

/-- A text that such characters and a closing brace begin does not begin with an inert value: the
brace is not in the value, and the value has a character of another kind. -/
theorem IsInert.not_begins {value : Text} (h : IsInert value) {front rest : Text}
    (hfront : ∀ c ∈ front, IsPart c) : ¬front ++ [.char '\x7d'] <+: value ++ rest := by
  intro hbegins
  obtain ⟨c, hc, hblank, hname⟩ := h.foreign
  rcases List.prefix_or_prefix_of_prefix hbegins (List.prefix_append value rest) with hin | hover
  · exact h.closing (hin.subset (List.mem_append_right front (List.mem_singleton_self _)))
  · have hpart : IsPart c := by
      rcases List.mem_append.mp (hover.subset hc) with hc | hc
      · exact hfront c hc
      · exact .inr (.inl (List.mem_singleton.mp hc))
    rcases hpart with rfl | rfl | hpart | hpart
    · exact h.opening hc
    · exact h.closing hc
    · exact Bool.false_ne_true (hblank.symm.trans hpart)
    · exact Bool.false_ne_true (hname.symm.trans hpart)

/-- The text with its parts replaced one after the other. -/
def replaced (table : VariableTable) (text : Text) : Text :=
  (pieces text).flatMap (replacement table)

theorem replaced_cons {c : CodePoint} {rest : Text} (h : occurrence? (c :: rest) = none) :
    replaced table (c :: rest) = c :: replaced table rest := by
  rw [replaced, pieces_cons h, List.flatMap_cons]
  rfl

theorem replaced_append {o : Occurrence} (ho : o.IsPlaceholder) (after : Text) :
    replaced table (o.whole ++ after) =
      (known table o).getD o.whole ++ replaced table after := by
  rw [replaced, pieces_append ho, List.flatMap_cons]
  rfl

section Inert

variable (hinert : ∀ o value, known table o = some value → IsInert value)
include hinert

/-- Where the replaced text begins with characters of placeholders up to a closing brace, the text
begins so as well. -/
theorem begins_of_begins_replaced {text front : Text} (hfront : ∀ c ∈ front, IsPart c)
    (h : front ++ [.char '\x7d'] <+: replaced table text) : front ++ [.char '\x7d'] <+: text := by
  induction text using pieces_induction generalizing front with
  | nil => exact h
  | char c rest hscan ih =>
    rw [replaced_cons hscan] at h
    cases front with
    | nil =>
      rw [List.nil_append, List.cons_prefix_cons] at h ⊢
      exact ⟨h.1, List.nil_prefix⟩
    | cons d front =>
      rw [List.cons_append, List.cons_prefix_cons] at h ⊢
      exact ⟨h.1, ih (fun c hc => hfront c (List.mem_cons_of_mem d hc)) h.2⟩
  | placeholder o after ho ih =>
    rw [replaced_append ho] at h
    cases hknown : known table o with
    | some value =>
      rw [hknown, Option.getD_some] at h
      exact absurd h ((hinert o value hknown).not_begins hfront)
    | none =>
      rw [hknown, Option.getD_none] at h
      -- What is left of the front behind an unknown placeholder stands in what follows it.
      rcases List.prefix_or_prefix_of_prefix h (List.prefix_append o.whole _) with hin | hover
      · exact hin.trans (List.prefix_append o.whole after)
      · obtain ⟨left, hleft⟩ := hover
        rw [← hleft, List.prefix_append_right_inj] at h ⊢
        rcases List.eq_nil_or_concat left with rfl | ⟨front', c, rfl⟩
        · exact List.nil_prefix
        · rw [List.concat_eq_append, ← List.append_assoc] at hleft
          obtain ⟨hfront', hc⟩ := List.append_inj' hleft rfl
          rw [List.concat_eq_append, hc] at h ⊢
          refine ih (fun c hc => hfront c ?_) h
          rw [← hfront']
          exact List.mem_append_right o.whole hc

/-- Replacing the known placeholders of a text puts no known placeholder together. -/
theorem isSettled_replaced (text : Text) : IsSettled table (replaced table text) := by
  induction text using pieces_induction with
  | nil => exact fun i o ho => absurd ho (not_standsAt_nil i o)
  | char c rest hscan ih =>
    intro i o ho
    rw [replaced_cons hscan] at ho
    cases i with
    | succ i => exact ih i o ho
    | zero =>
      obtain ⟨front, hwhole, hfront⟩ := ho.1.exists_ending
      have hbegins : o.whole <+: replaced table (c :: rest) := by
        rw [replaced_cons hscan]
        exact ho.2
      rw [hwhole] at hbegins
      have hthere := begins_of_begins_replaced hinert hfront hbegins
      rw [← hwhole] at hthere
      exact absurd ⟨ho.1, hthere⟩ (not_standsAt_zero hscan o)
  | placeholder o after ho ih =>
    intro i p hp
    rw [replaced_append ho] at hp
    cases hknown : known table o with
    | none =>
      rw [hknown, Option.getD_none] at hp
      rcases standsAt_append ho hp with ⟨-, rfl⟩ | ⟨k, -, hk⟩
      · exact hknown
      · exact ih k p hk
    | some value =>
      rw [hknown, Option.getD_some] at hp
      obtain ⟨body, hwhole, -, -⟩ := hp.1.exists_body
      -- A placeholder begins with a brace, so not inside the value.
      have hbehind : value.length ≤ i := by
        by_contra hinside
        have hbegins := hp.2
        rw [hwhole, List.drop_append_of_le_length (by omega),
          List.drop_eq_getElem_cons (by omega), List.cons_append, List.cons_prefix_cons] at hbegins
        exact (hinert o value hknown).opening (hbegins.1 ▸ List.getElem_mem _)
      refine ih (i - value.length) p ⟨hp.1, ?_⟩
      have hbegins := hp.2
      rwa [List.drop_append, List.drop_eq_nil_of_le hbehind, List.nil_append] at hbegins

end Inert

/-- The substitution of a text is settled where the values are inert. -/
theorem IsSubstitution.isSettled (hinert : ∀ o value, known table o = some value → IsInert value)
    {text result : Text} (h : IsSubstitution table text result) : IsSettled table result := by
  rw [h.unique (isSubstitution_pieces table text)]
  exact isSettled_replaced hinert text

end Placeholder

namespace EnvironmentStore

open Placeholder

/-- Where the variables of the selected table have inert texts for values, every text is resolved to
one in which no placeholder has a name of the table. Resolving that again leaves it as it is. -/
theorem resolve_resolve {store : EnvironmentStore} {table : VariableTable}
    (hbindings : store.bindings .null = .ok table)
    (hvalues : ∀ b ∈ table, ∃ value, b.2 = .str value ∧ IsInert value) (text : Text) :
    ∃ result, store.resolve (.str text) = .ok (.str result) ∧
      (∀ (i : Nat) (o : Occurrence), StandsAt result i o →
        Assoc.contains (.str o.name) table = false) ∧
      store.resolve (.str result) = .ok (.str result) := by
  have htexts : ∀ b ∈ table, ∃ value, b.2 = .str value := fun b hb =>
    (hvalues b hb).imp fun _ h => h.1
  have hinert (o : Occurrence) (value : Text) (h : known table o = some value) : IsInert value := by
    obtain ⟨b, hb, hvalue⟩ := Assoc.exists_mem_of_get? (known_eq_some_iff.mp h)
    obtain ⟨other, hother, hinert⟩ := hvalues b hb
    rw [hother, Value.str.injEq] at hvalue
    exact hvalue ▸ hinert
  obtain ⟨result, hresolve, hresult⟩ := exists_resolve_eq hbindings htexts text
  have hsettled : IsSettled table result := hresult.isSettled hinert
  refine ⟨result, hresolve, fun i o ho => ?_, ?_⟩
  · rw [Bool.eq_false_iff]
    intro hthere
    obtain ⟨v, hv⟩ := Assoc.exists_get?_of_contains hthere
    obtain ⟨b, hb, rfl⟩ := Assoc.exists_mem_of_get? hv
    obtain ⟨value, hvalue⟩ := htexts b hb
    have hknown : known table o = some value := known_eq_some_iff.mpr (hv.trans (congrArg some hvalue))
    rw [hsettled i o ho] at hknown
    cases hknown
  · obtain ⟨again, hagain, hsame⟩ := exists_resolve_eq hbindings htexts result
    rw [hagain, hsame.unique hsettled.isSubstitution]

/-- Of two pairs of braces in a row, the inner one is replaced by a value with a slash, and what is
left with the outer pair is no placeholder. -/
theorem resolve_resolve_nested :
    ∃ (store : EnvironmentStore) (table : VariableTable), store.bindings .null = .ok table ∧
      (∀ b ∈ table, ∃ value, b.2 = .str value ∧ IsInert value) ∧
      store.resolve (.str "\x7b\x7b\x7b\x7bA\x7d\x7d\x7d\x7d") =
        .ok (.str "\x7b\x7bv1/A\x7d\x7d") ∧
      store.resolve (.str "\x7b\x7bv1/A\x7d\x7d") = .ok (.str "\x7b\x7bv1/A\x7d\x7d") := by
  let table : VariableTable := [(.str "A", .str "v1/A")]
  let store : EnvironmentStore := ⟨[(.str "dev", table)], some (.str "dev")⟩
  have hbindings : store.bindings .null = .ok table := rfl
  have hvalues : ∀ b ∈ table, ∃ value, b.2 = .str value ∧ IsInert value :=
    List.forall_mem_singleton.mpr
      ⟨"v1/A", rfl, by decide, by decide, .char '/', by decide, by decide, by decide⟩
  obtain ⟨result, hresolve, -, hagain⟩ :=
    resolve_resolve hbindings hvalues "\x7b\x7b\x7b\x7bA\x7d\x7d\x7d\x7d"
  have hfirst : store.resolve (.str "\x7b\x7b\x7b\x7bA\x7d\x7d\x7d\x7d") =
      .ok (.str "\x7b\x7bv1/A\x7d\x7d") := rfl
  obtain rfl : Text.ofString "\x7b\x7bv1/A\x7d\x7d" = result :=
    Value.str.inj (Except.ok.inj (hfirst.symm.trans hresolve))
  exact ⟨store, table, hbindings, hvalues, hfirst, hagain⟩

/-- A value that is a name is put together with the braces around it. -/
example :
    resolve ⟨[(.str "dev", [(.str "A", .str "B"), (.str "B", .str "1")])], some (.str "dev")⟩
      (.str "\x7b\x7b\x7b\x7bA\x7d\x7d\x7d\x7d") = .ok (.str "\x7b\x7bB\x7d\x7d") := rfl

end EnvironmentStore

end HttpWorkbench
