import HttpWorkbench.Proofs.Result
import HttpWorkbench.Value.Access

/-!
# Dictionaries without repeated keys

However a dictionary comes about, by setting and removing keys, from pairs, or from an object that is
read, it has no key twice: setting a key that is there keeps its place.
-/

namespace HttpWorkbench

namespace Assoc

variable {κ ν : Type} [BEq κ] {entries : List (κ × ν)}

/-- No two keys are the same. -/
def HasDistinctKeys (entries : List (κ × ν)) : Prop :=
  (entries.map Prod.fst).Pairwise fun a b => (a == b) = false

instance : Decidable (HasDistinctKeys entries) := inferInstanceAs (Decidable (List.Pairwise _ _))

theorem hasDistinctKeys_nil : HasDistinctKeys ([] : List (κ × ν)) := List.Pairwise.nil

/-- Setting a value keeps the keys in their order, and adds the key at the end if it is new. -/
theorem keys_put (k : κ) (v : ν) (entries : List (κ × ν)) :
    (put k v entries).map Prod.fst =
      if contains k entries then entries.map Prod.fst else entries.map Prod.fst ++ [k] := by
  induction entries with
  | nil => rfl
  | cons e entries ih =>
    by_cases he : (e.1 == k) = true
    · simp [put, contains, he]
    · have hcontains : contains k (e :: entries) = contains k entries := by simp [contains, he]
      rw [put, if_neg he, List.map_cons, ih, hcontains]
      split <;> rfl

theorem HasDistinctKeys.put (h : HasDistinctKeys entries) (k : κ) (v : ν) :
    HasDistinctKeys (put k v entries) := by
  rw [HasDistinctKeys, keys_put]
  split
  · exact h
  · rename_i hnew
    rw [Bool.not_eq_true, contains, List.any_eq_false] at hnew
    rw [List.pairwise_append]
    refine ⟨h, List.pairwise_singleton _ _, ?_⟩
    simpa using hnew

theorem HasDistinctKeys.putAll (h : HasDistinctKeys entries) (pairs : List (κ × ν)) :
    HasDistinctKeys (putAll entries pairs) := by
  induction pairs generalizing entries with
  | nil => exact h
  | cons p pairs ih => exact ih (h.put p.1 p.2)

/-- The dictionary of any pairs has no key twice. -/
theorem hasDistinctKeys_ofList (pairs : List (κ × ν)) : HasDistinctKeys (ofList pairs) :=
  hasDistinctKeys_nil.putAll pairs

theorem HasDistinctKeys.filter (h : HasDistinctKeys entries) (p : κ × ν → Bool) :
    HasDistinctKeys (entries.filter p) :=
  List.Pairwise.sublist (List.filter_sublist.map Prod.fst) h

theorem HasDistinctKeys.erase (h : HasDistinctKeys entries) (k : κ) :
    HasDistinctKeys (erase k entries) := h.filter _

theorem HasDistinctKeys.ofList_eq (h : HasDistinctKeys entries) : ofList entries = entries :=
  ofList_of_distinct (List.pairwise_map.mp h)

/-- Names are distinct as keys if they are distinct as texts. -/
theorem hasDistinctKeys_named {fields : List (Text × Value)} :
    HasDistinctKeys (fields.map fun f => (Value.str f.1, f.2)) ↔ (fields.map Prod.fst).Nodup := by
  have hne (a b : Text) : (Value.str a == Value.str b) = false ↔ a ≠ b :=
    beq_eq_false_iff_ne (a := a) (b := b)
  rw [HasDistinctKeys, List.map_map, List.Nodup, List.pairwise_map, List.pairwise_map]
  simp only [Function.comp_apply, hne]

end Assoc

namespace Value

/-- No dictionary in the value, however deep, has a key twice. -/
inductive HasDistinctKeys : Value → Prop
  | list {items : List Value} (h : ∀ x ∈ items, HasDistinctKeys x) : HasDistinctKeys (.list items)
  | map {entries : List (Value × Value)} (hkeys : Assoc.HasDistinctKeys entries)
      (h : ∀ e ∈ entries, HasDistinctKeys e.2) : HasDistinctKeys (.map entries)
  | single {v : Value} (hlist : ∀ items, v ≠ .list items) (hmap : ∀ entries, v ≠ .map entries) :
      HasDistinctKeys v

theorem HasDistinctKeys.keys {entries : List (Value × Value)} (h : HasDistinctKeys (.map entries)) :
    Assoc.HasDistinctKeys entries := by
  cases h with
  | map hkeys _ => exact hkeys
  | single _ hmap => exact absurd rfl (hmap entries)

theorem HasDistinctKeys.value {entries : List (Value × Value)} (h : HasDistinctKeys (.map entries))
    {e : Value × Value} (he : e ∈ entries) : e.2.HasDistinctKeys := by
  cases h with
  | map _ hvalues => exact hvalues e he
  | single _ hmap => exact absurd rfl (hmap entries)

theorem hasDistinctKeys_null : HasDistinctKeys .null := .single (by simp) (by simp)

/-- What stands under a name is as all values are, if what stands in for it is. -/
theorem fieldOr_of_forall {P : Value → Prop} {entries : List (Value × Value)}
    (h : ∀ e ∈ entries, P e.2) {other : Value} (hother : P other) (name : Text) :
    P (fieldOr name entries other) := by
  rw [Value.fieldOr, field?]
  cases hget : Assoc.get? (.str name) entries with
  | none => exact hother
  | some v =>
    obtain ⟨e, he, rfl⟩ := Assoc.exists_mem_of_get? hget
    exact h e he

theorem HasDistinctKeys.fieldOr {entries : List (Value × Value)} (h : HasDistinctKeys (.map entries))
    (name : Text) : (fieldOr name entries .null).HasDistinctKeys :=
  fieldOr_of_forall (fun _ he => h.value he) hasDistinctKeys_null name

/-- A dictionary that a value stands for, itself a dictionary or a row of pairs. -/
theorem HasDistinctKeys.toDictionary {v : Value} (h : v.HasDistinctKeys)
    {entries : List (Value × Value)} (hv : v.toDictionary = .ok entries) :
    Assoc.HasDistinctKeys entries := by
  rw [Value.toDictionary.eq_def] at hv
  split at hv
  · obtain rfl := Except.ok.inj hv
    exact h.keys
  · obtain ⟨rows, -, hv⟩ := bind_eq_ok_iff.mp hv
    obtain ⟨pairs, -, hv⟩ := bind_eq_ok_iff.mp hv
    obtain rfl := Except.ok.inj hv
    exact Assoc.hasDistinctKeys_ofList pairs

end Value

end HttpWorkbench
