import HttpWorkbench.Text.Blank
import HttpWorkbench.Value.Basic
import Mathlib.Data.List.TakeWhile

/-!
# Trimmed texts

What trimming leaves of a text: nothing exactly of one that is all blanks, and else a text that begins
with the first character that is no blank. Blanks around a text that neither begins nor ends with one
are taken off, and nothing else.
-/

namespace HttpWorkbench

namespace Text

/-- Trimming leaves nothing of a text exactly when all of it is blank. -/
theorem trim_eq_nil_iff (s : Text) : trim s = [] ↔ isAllBlank s = true := by
  rw [trim, trimWhile, List.reverse_eq_nil_iff, List.dropWhile_eq_nil_iff,
    isAllBlank, List.all_eq_true]
  constructor
  · intro h
    have hnil : s.dropWhile isBlank = [] := by
      cases hs : s.dropWhile isBlank with
      | nil => rfl
      | cons c rest =>
        have hc := List.head?_dropWhile_not isBlank s
        rw [hs] at h hc
        simp [h c (List.mem_reverse.mpr List.mem_cons_self)] at hc
    exact List.dropWhile_eq_nil_iff.mp hnil
  · intro h c hc
    exact h c ((List.dropWhile_sublist _).subset (List.mem_reverse.mp hc))

/-- Trimming a text whose first character behind blanks is no blank keeps that character first. -/
theorem head?_trim {left : Text} (hleft : ∀ c ∈ left, isBlank c = true) {c : CodePoint}
    (hc : isBlank c = false) (rest : Text) :
    (trim (left ++ c :: rest)).head? = some c := by
  have hdrop : (left ++ c :: rest).dropWhile isBlank = c :: rest := by
    rw [List.dropWhile_append_of_pos hleft, List.dropWhile_cons, hc]
    rfl
  have hlast : [c].dropWhile isBlank = [c] := by
    rw [List.dropWhile_cons, hc]
    rfl
  rw [trim, trimWhile, hdrop, List.reverse_cons, List.dropWhile_append, hlast]
  split <;> simp

/-- A text that neither begins nor ends with a blank. -/
def IsTrimmed (s : Text) : Prop :=
  (∀ c ∈ s.head?, isBlank c = false) ∧ ∀ c ∈ s.getLast?, isBlank c = false

instance (s : Text) : Decidable s.IsTrimmed := inferInstanceAs (Decidable (_ ∧ _))

theorem isTrimmed_of_forall {s : Text} (h : ∀ c ∈ s, isBlank c = false) : s.IsTrimmed :=
  ⟨fun c hc => h c (List.mem_of_mem_head? hc), fun c hc => h c (List.mem_of_mem_getLast? hc)⟩

theorem dropWhile_blanks_append {left s : Text} (hleft : isAllBlank left = true)
    (hs : ∀ c ∈ s.head?, isBlank c = false) : (left ++ s).dropWhile isBlank = s := by
  rw [List.dropWhile_append_of_pos (List.all_eq_true.mp hleft)]
  cases s with
  | nil => rfl
  | cons c s => rw [List.dropWhile_cons, hs c rfl, if_neg Bool.false_ne_true]

/-- Trimming takes off exactly the blanks around a text that neither begins nor ends with one. -/
theorem trim_append {left s right : Text} (hleft : isAllBlank left = true) (hs : s.IsTrimmed)
    (hright : isAllBlank right = true) : trim (left ++ s ++ right) = s := by
  cases s with
  | nil =>
    rw [trim_eq_nil_iff, isAllBlank, List.append_nil, List.all_append, Bool.and_eq_true]
    exact ⟨hleft, hright⟩
  | cons c s =>
    have hfront : (left ++ (c :: s ++ right)).dropWhile isBlank = c :: s ++ right :=
      dropWhile_blanks_append hleft hs.1
    have hreversed : isAllBlank right.reverse = true := by
      rw [isAllBlank, List.all_reverse]
      exact hright
    have hback : (right.reverse ++ (c :: s).reverse).dropWhile isBlank = (c :: s).reverse := by
      refine dropWhile_blanks_append hreversed ?_
      rw [List.head?_reverse]
      exact hs.2
    rw [trim, trimWhile, List.append_assoc, hfront, List.reverse_append, hback, List.reverse_reverse]

end Text

/-- A trimmed text counts unless the text is all blanks. -/
theorem Value.isTrue_trim (s : Text) :
    (Value.str (Text.trim s)).isTrue = !Text.isAllBlank s := by
  rw [Bool.eq_iff_iff, Bool.not_eq_true', Bool.eq_false_iff, ne_eq, ← Text.trim_eq_nil_iff]
  simp [Value.isTrue]

end HttpWorkbench
