import HttpWorkbench.Json.Reader
import HttpWorkbench.Json.Writer
import HttpWorkbench.Proofs.Json.DistinctKeys
import HttpWorkbench.Proofs.Value.Same

/-!
# What is read from texts

Whatever the text, a value that is read from it has a place in a document again: it is made of values
that hold no others, lists, and dictionaries with texts for keys, none of which is there twice. Its
texts may have half characters, which a document spells out.
-/

namespace HttpWorkbench.Json

/-- A value that a text is read as. -/
inductive IsData : Value → Prop
  | scalar {v : Value} (h : (scalarText? true v).isSome = true) : IsData v
  | list {items : List Value} (h : ∀ x ∈ items, IsData x) : IsData (.list items)
  | map {entries : List (Value × Value)} (hkeys : Assoc.HasDistinctKeys entries)
      (hnames : ∀ e ∈ entries, ∃ name : Text, e.1 = .str name) (h : ∀ e ∈ entries, IsData e.2) :
      IsData (.map entries)

theorem IsData.null : IsData .null := .scalar rfl

/-- A dictionary that is read is one of texts. -/
theorem IsData.exists_name {entries : List (Value × Value)} (h : IsData (.map entries)) :
    ∀ e ∈ entries, ∃ name : Text, e.1 = .str name := by
  cases h with
  | map _ hnames _ => exact hnames
  | scalar h => cases h

theorem IsData.keys {entries : List (Value × Value)} (h : IsData (.map entries)) :
    Assoc.HasDistinctKeys entries := by
  cases h with
  | map hkeys _ _ => exact hkeys
  | scalar h => cases h

theorem IsData.value {entries : List (Value × Value)} (h : IsData (.map entries)) :
    ∀ e ∈ entries, IsData e.2 := by
  cases h with
  | map _ _ h => exact h
  | scalar h => cases h

theorem IsData.item {items : List Value} (h : IsData (.list items)) : ∀ x ∈ items, IsData x := by
  cases h with
  | list h => exact h
  | scalar h => cases h

theorem IsData.fieldOr {entries : List (Value × Value)} (h : IsData (.map entries)) (name : Text)
    {other : Value} (hother : IsData other) : IsData (Value.fieldOr name entries other) :=
  Value.fieldOr_of_forall h.value hother name

theorem IsData.hasDistinctKeys {v : Value} (h : IsData v) : v.HasDistinctKeys := by
  induction h with
  | @scalar v h =>
    refine .single ?_ ?_
    all_goals
      rintro _ rfl
      cases h
  | list _ ih => exact .list ih
  | map hkeys _ _ ih => exact .map hkeys ih

/-- The dictionary that is made of named members is one of texts. -/
theorem IsData.ofMembers {members : List (Value × Value)}
    (h : ∀ e ∈ members, (∃ name : Text, e.1 = .str name) ∧ IsData e.2) :
    IsData (.map (Assoc.ofList members)) := by
  have hentry : ∀ e ∈ Assoc.ofList members, (∃ name : Text, e.1 = .str name) ∧ IsData e.2 := by
    intro e he
    rcases Assoc.mem_putAll_of_beq he with he | ⟨p, hp, hvalue, hkey⟩
    · cases he
    · obtain ⟨⟨name, hname⟩, hdata⟩ := h p hp
      rw [hname] at hkey
      rw [hvalue]
      refine ⟨⟨name, ?_⟩, hdata⟩
      rcases hkey with hkey | hkey
      · exact hkey
      · exact Value.eq_str_of_same hkey
  exact .map (Assoc.hasDistinctKeys_ofList members) (fun e he => (hentry e he).1) fun e he => (hentry e he).2

/-! ## Reading -/

/-- A number holds no other values. -/
theorem NumberParts.isData_value {p : NumberParts} {v : Value} (h : p.value = .ok v) : IsData v := by
  rw [NumberParts.value.eq_def] at h
  split at h
  · simp only at h
    split at h
    · cases h
    · obtain rfl := Except.ok.inj h
      exact .scalar rfl
  · obtain rfl := Except.ok.inj h
    exact .scalar rfl

theorem isData_readScalar {cs rest : Text} {v : Value} (h : readScalar cs = .ok (v, rest)) :
    IsData v := by
  have hwords : ∀ w ∈ words, IsData w.2 := by
    simp only [words, List.forall_mem_cons]
    exact ⟨.scalar rfl, .scalar rfl, .scalar rfl, .scalar rfl, .scalar rfl, .scalar rfl,
      List.forall_mem_nil _⟩
  rw [readScalar] at h
  split at h
  · rename_i word v' hword
    obtain ⟨rfl, -⟩ := Prod.mk.inj (Except.ok.inj h)
    exact hwords _ (List.mem_of_find?_eq_some hword)
  · split at h
    · obtain ⟨v', hv', h⟩ := bind_eq_ok_iff.mp h
      obtain ⟨rfl, -⟩ := Prod.mk.inj (Except.ok.inj h)
      exact NumberParts.isData_value hv'
    · cases h

/-- Values, items and members are read as such. -/
structure ReadsData (fuel : Nat) : Prop where
  value : ∀ {depth cs v rest}, readValue fuel depth cs = .ok (v, rest) → IsData v
  items : ∀ {depth cs vs rest}, readItems fuel depth cs = .ok (vs, rest) → ∀ v ∈ vs, IsData v
  members : ∀ {depth cs es rest}, readMembers fuel depth cs = .ok (es, rest) →
    ∀ e ∈ es, (∃ name : Text, e.1 = .str name) ∧ IsData e.2

/-- A list is read from its items, and a dictionary is made of the members that are read. -/
theorem ReadsData.value_succ {fuel : Nat} (h : ReadsData fuel) {depth : Nat} {cs rest : Text}
    {v : Value} (hread : readValue (fuel + 1) depth cs = .ok (v, rest)) : IsData v := by
  rw [readValue.eq_def] at hread
  simp only at hread
  split at hread
  · obtain ⟨⟨s, _⟩, -, hread⟩ := bind_eq_ok_iff.mp hread
    obtain ⟨rfl, -⟩ := Prod.mk.inj (Except.ok.inj hread)
    exact .scalar rfl
  · split at hread
    · cases hread
    · obtain ⟨rfl, -⟩ := Prod.mk.inj (Except.ok.inj hread)
      exact .ofMembers (List.forall_mem_nil _)
    · obtain ⟨⟨members, _⟩, hmembers, hread⟩ := bind_eq_ok_iff.mp hread
      obtain ⟨rfl, -⟩ := Prod.mk.inj (Except.ok.inj hread)
      exact .ofMembers (h.members hmembers)
  · split at hread
    · cases hread
    · obtain ⟨rfl, -⟩ := Prod.mk.inj (Except.ok.inj hread)
      exact .list (List.forall_mem_nil _)
    · obtain ⟨⟨items, _⟩, hitems, hread⟩ := bind_eq_ok_iff.mp hread
      obtain ⟨rfl, -⟩ := Prod.mk.inj (Except.ok.inj hread)
      exact .list (h.items hitems)
  · exact isData_readScalar hread

theorem ReadsData.items_succ {fuel : Nat} (h : ReadsData fuel) {depth : Nat} {cs rest : Text}
    {vs : List Value} (hread : readItems (fuel + 1) depth cs = .ok (vs, rest)) :
    ∀ v ∈ vs, IsData v := by
  rw [readItems] at hread
  obtain ⟨⟨v, after⟩, hv, hread⟩ := bind_eq_ok_iff.mp hread
  simp only at hread
  split at hread
  · obtain ⟨rfl, -⟩ := Prod.mk.inj (Except.ok.inj hread)
    exact List.forall_mem_singleton.mpr (h.value hv)
  · obtain ⟨⟨more, _⟩, hmore, hread⟩ := bind_eq_ok_iff.mp hread
    obtain ⟨rfl, -⟩ := Prod.mk.inj (Except.ok.inj hread)
    exact List.forall_mem_cons.mpr ⟨h.value hv, h.items hmore⟩
  · cases hread

theorem ReadsData.members_succ {fuel : Nat} (h : ReadsData fuel) {depth : Nat} {cs rest : Text}
    {es : List (Value × Value)} (hread : readMembers (fuel + 1) depth cs = .ok (es, rest)) :
    ∀ e ∈ es, (∃ name : Text, e.1 = .str name) ∧ IsData e.2 := by
  rw [readMembers.eq_def] at hread
  simp only at hread
  split at hread
  · obtain ⟨⟨name, after⟩, -, hread⟩ := bind_eq_ok_iff.mp hread
    simp only at hread
    split at hread
    · obtain ⟨⟨v, _⟩, hv, hread⟩ := bind_eq_ok_iff.mp hread
      simp only at hread
      split at hread
      · obtain ⟨rfl, -⟩ := Prod.mk.inj (Except.ok.inj hread)
        exact List.forall_mem_singleton.mpr ⟨⟨name, rfl⟩, h.value hv⟩
      · obtain ⟨⟨more, _⟩, hmore, hread⟩ := bind_eq_ok_iff.mp hread
        obtain ⟨rfl, -⟩ := Prod.mk.inj (Except.ok.inj hread)
        exact List.forall_mem_cons.mpr ⟨⟨⟨name, rfl⟩, h.value hv⟩, h.members hmore⟩
      · cases hread
    · cases hread
  · cases hread

theorem readsData (fuel : Nat) : ReadsData fuel := by
  induction fuel with
  | zero => exact ⟨fun h => by simp [readValue] at h, fun h => by simp [readItems] at h,
      fun h => by simp [readMembers] at h⟩
  | succ fuel ih => exact ⟨ih.value_succ, ih.items_succ, ih.members_succ⟩

theorem isData_read {text : Text} {v : Value} (h : read text = .ok v) : IsData v := by
  rw [read] at h
  split at h
  · rename_i v' hread
    obtain rfl := Except.ok.inj h
    rw [readDocument.eq_def] at hread
    split at hread
    · cases hread
    · obtain ⟨⟨v'', after⟩, hvalue, hread⟩ := bind_eq_ok_iff.mp hread
      simp only at hread
      split at hread
      · obtain rfl := Except.ok.inj hread
        exact (readsData _).value hvalue
      · cases hread
  all_goals cases h

end HttpWorkbench.Json
