import HttpWorkbench.Value.Basic

/-!
# Values that are the same

A text is the same as no other value. Lists and maps that are the same have parts that are, so a value
nests at least as deep as one that it is the same as: no value is the same as a part of its own.
-/

namespace HttpWorkbench.Value

mutual

/-- How deep lists, maps and headers nest in a value. The keys of maps do not count. -/
def nesting : Value → Nat
  | .list xs => nestingOfItems xs + 1
  | .map es => nestingOfEntries es + 1
  | .header k v => max k.nesting v.nesting + 1
  | _ => 0
termination_by structural v => v

/-- How deep the items of a list nest. -/
def nestingOfItems : List Value → Nat
  | [] => 0
  | x :: xs => max x.nesting (nestingOfItems xs)
termination_by structural xs => xs

/-- How deep the values of a map nest. -/
def nestingOfEntries : List (Value × Value) → Nat
  | [] => 0
  | (_, v) :: es => max v.nesting (nestingOfEntries es)
termination_by structural es => es

end

theorem nesting_le_of_mem_items {xs : List Value} {x : Value} (h : x ∈ xs) :
    x.nesting ≤ nestingOfItems xs := by
  induction xs with
  | nil => cases h
  | cons y xs ih =>
    rw [nestingOfItems]
    rcases List.mem_cons.mp h with rfl | h
    · exact Nat.le_max_left _ _
    · exact Nat.le_trans (ih h) (Nat.le_max_right _ _)

theorem nesting_le_of_mem_entries {es : List (Value × Value)} {e : Value × Value} (h : e ∈ es) :
    e.2.nesting ≤ nestingOfEntries es := by
  induction es with
  | nil => cases h
  | cons d es ih =>
    rw [nestingOfEntries]
    rcases List.mem_cons.mp h with rfl | h
    · exact Nat.le_max_left _ _
    · exact Nat.le_trans (ih h) (Nat.le_max_right _ _)

/-- Only a text is the same as a text. -/
theorem eq_str_of_same {v : Value} {s : Text} (h : v.same (.str s) = true) : v = .str s := by
  cases v <;> simp_all [same, asInt?]

/-- A text is the same as no other value. -/
theorem eq_str_of_str_same {v : Value} {s : Text} (h : (Value.str s).same v = true) :
    v = .str s := by
  cases v <;> simp_all [same, asInt?]

/-- Only a text is equal to a text. -/
theorem isEqual_str_iff {v : Value} {s : Text} : v.isEqual (.str s) = true ↔ v = .str s := by
  constructor
  · intro h
    cases v with
    | float x => cases h
    | _ => exact eq_str_of_same h
  · intro h
    rw [h, isEqual_str]
    exact beq_self_eq_true s

theorem isEqual_str_eq_false_iff {v : Value} {s : Text} :
    v.isEqual (.str s) = false ↔ v ≠ .str s := by
  rw [Bool.eq_false_iff, ne_eq, isEqual_str_iff]

/-- Each entry of a map is an entry of a map that is the same. -/
theorem exists_mem_of_sameEntries {es fs : List (Value × Value)} (h : sameEntries es fs = true)
    {e : Value × Value} (he : e ∈ es) :
    ∃ f ∈ fs, e.1.same f.1 = true ∧ e.2.same f.2 = true := by
  induction es with
  | nil => cases he
  | cons d es ih =>
    rw [sameEntries, Bool.and_eq_true] at h
    rcases List.mem_cons.mp he with rfl | he
    · have hfound := h.1
      split at hfound
      · rename_i f hf
        exact ⟨f, List.mem_of_find?_eq_some hf, by simpa using List.find?_some hf, hfound⟩
      · cases hfound
    · exact ih h.2 he

mutual

theorem nesting_le_of_same : (v w : Value) → v.same w = true → v.nesting ≤ w.nesting
  | .list xs, w, h => by
    cases w with
    | list ys => exact Nat.succ_le_succ (nestingOfItems_le_of_same xs ys h)
    | _ => cases h
  | .map es, w, h => by
    cases w with
    | map fs =>
      rw [same, Bool.and_eq_true] at h
      exact Nat.succ_le_succ (nestingOfEntries_le_of_same es fs h.2)
    | _ => cases h
  | .header k v, w, h => by
    cases w with
    | header k' v' =>
      rw [same, Bool.and_eq_true] at h
      have hkey := nesting_le_of_same k k' h.1
      have hvalue := nesting_le_of_same v v' h.2
      simp only [nesting]
      omega
    | _ => cases h
  | .null, w, _ | .bool _, w, _ | .int _, w, _ | .float _, w, _ | .str _, w, _ | .bytes _, w, _
  | .language _, w, _ => Nat.zero_le w.nesting
termination_by structural v => v

theorem nestingOfItems_le_of_same : (xs ys : List Value) → sameItems xs ys = true →
    nestingOfItems xs ≤ nestingOfItems ys
  | [], ys, _ => Nat.zero_le (nestingOfItems ys)
  | x :: xs, [], h => by cases h
  | x :: xs, y :: ys, h => by
    rw [sameItems, Bool.and_eq_true] at h
    have hfirst := nesting_le_of_same x y h.1
    have hothers := nestingOfItems_le_of_same xs ys h.2
    simp only [nestingOfItems]
    omega
termination_by structural xs => xs

theorem nestingOfEntries_le_of_same : (es fs : List (Value × Value)) → sameEntries es fs = true →
    nestingOfEntries es ≤ nestingOfEntries fs
  | [], fs, _ => Nat.zero_le (nestingOfEntries fs)
  | (k, v) :: es, fs, h => by
    obtain ⟨f, hf, -, hsame⟩ := exists_mem_of_sameEntries h (List.mem_cons_self ..)
    rw [sameEntries, Bool.and_eq_true] at h
    have hfirst := Nat.le_trans (nesting_le_of_same v f.2 hsame) (nesting_le_of_mem_entries hf)
    have hothers := nestingOfEntries_le_of_same es fs h.2
    simp only [nestingOfEntries]
    omega
termination_by structural es => es

end

end HttpWorkbench.Value
