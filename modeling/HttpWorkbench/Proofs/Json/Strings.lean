import HttpWorkbench.Proofs.Json.Numbers
import Mathlib.Tactic.IntervalCases

/-!
# Strings are read back

A text without halves is written as a string that is read as the same text. What is written of it has
no halves either, and no line end that a file would change.
-/

namespace HttpWorkbench.Json

/-! ## Texts that a file gives back -/

/-- No half, and no line end that is changed when a file is read. -/
def IsClean (cs : Text) : Prop := ∀ c ∈ cs, c.isHalf = false ∧ c ≠ '\r'

instance (cs : Text) : Decidable (IsClean cs) := inferInstanceAs (Decidable (∀ c ∈ cs, _ ∧ _))

namespace IsClean

variable {a b : Text}

theorem nil : IsClean [] := List.forall_mem_nil _

theorem append (ha : IsClean a) (hb : IsClean b) : IsClean (a ++ b) := fun c hc =>
  (List.mem_append.mp hc).elim (ha c) (hb c)

theorem cons {c : CodePoint} (hc : c.isHalf = false ∧ c ≠ '\r') (hb : IsClean b) :
    IsClean (c :: b) :=
  List.forall_mem_cons.mpr ⟨hc, hb⟩

theorem flatMap {α : Type} {xs : List α} {f : α → Text} (h : ∀ x ∈ xs, IsClean (f x)) :
    IsClean (xs.flatMap f) := by
  intro c hc
  obtain ⟨x, hx, hc⟩ := List.mem_flatMap.mp hc
  exact h x hx c hc

theorem of_digits (h : ∀ c ∈ a, isDigit c = true) : IsClean a := by
  intro c hc
  have hdigit := h c hc
  cases c with
  | char d =>
    refine ⟨rfl, ?_⟩
    rintro h
    rw [h] at hdigit
    exact absurd hdigit (by decide)
  | half k => cases hdigit

theorem spaces (n : Nat) : IsClean (List.replicate n ' ') := by
  intro c hc
  rw [List.eq_of_mem_replicate hc]
  decide

/-- A clean text is written as one piece. -/
theorem piece (h : IsClean a) : Output.piece a = ⟨a, none⟩ := by
  rw [Output.piece, Text.Utf8.encodingFault?_eq_none_iff.mpr fun c hc => (h c hc).1]

/-- A clean text is read from a file as it is. -/
theorem unifyNewlines (h : IsClean a) : Text.unifyNewlines a = a := by
  induction a with
  | nil => rfl
  | cons c a ih =>
    have hc : c ≠ '\r' := (h c List.mem_cons_self).2
    unfold Text.unifyNewlines
    split
    · rename_i hnil
      exact hnil.symm
    · rename_i hr
      exact absurd (List.cons.inj hr).1 hc
    · rename_i hr
      exact absurd (List.cons.inj hr).1 hc
    · rename_i d b _ _ heq
      obtain ⟨rfl, rfl⟩ := List.cons.inj heq
      rw [ih fun c hc => h c (List.mem_cons_of_mem _ hc)]

end IsClean

@[simp] theorem Output.append_mk (a b : Text) (fault : Option WriteFault) :
    (⟨a, none⟩ ++ ⟨b, fault⟩ : Output) = ⟨a ++ b, fault⟩ := rfl

theorem isClean_newline (level : Nat) : IsClean (Layout.file.newline level) :=
  .cons (by decide) (.spaces _)

theorem isClean_comma (level : Nat) : IsClean (Layout.file.comma level) :=
  .append (by decide) (isClean_newline level)

/-! ## Strings -/

/-- A control character is spelled with four digits that are read as its number. -/
theorem exists_unitEscape {n : Nat} (hn : n < 0x20) :
    ∃ a b c d, unitEscape n = ['\\', 'u', a, b, c, d] ∧ hexUnit? a b c d = some n ∧
      IsClean (unitEscape n) := by
  interval_cases n <;> exact ⟨_, _, _, _, rfl, rfl, by decide⟩

section Strings

variable {c : CodePoint} {start tail : Text}

theorem isClean_escapeChar (hc : c.isHalf = false) : IsClean (escapeChar false c) := by
  unfold escapeChar
  split_ifs with h₁ h₂ h₃ h₄ h₅ h₆ h₇ h₈ h₉
  · decide
  · decide
  · decide
  · decide
  · decide
  · decide
  · decide
  · obtain ⟨_, _, _, _, -, -, hclean⟩ := exists_unitEscape h₈
    exact hclean
  · exact h₉.1.elim
  · exact .cons ⟨hc, h₄⟩ nofun

theorem readString_quote : readString start (.char '"' :: tail) = .ok ([], tail) := by
  conv => lhs; unfold readString
  simp only [if_true]

/-- A character after a backslash stands for another one. -/
theorem readString_escape {e d : CodePoint} (he : e ≠ 'u') (hd : escape? e = some d) :
    readString start ('\\' :: e :: tail) = consRead d (readString start tail) := by
  have hquote : (CodePoint.char '\\') ≠ '"' := by decide
  conv => lhs; unfold readString
  simp only [hquote, he, hd, if_true, if_false]

/-- Four digits of a character that is no half stand for it, whatever follows. -/
theorem readString_unit {a b d e : CodePoint} {unit : Nat} (hunit : hexUnit? a b d e = some unit)
    (hsmall : unit < 0xD800) (htail : tail ≠ []) :
    readString start ('\\' :: 'u' :: a :: b :: d :: e :: tail) =
      consRead (.ofValue unit) (readString start tail) := by
  have hquote : (CodePoint.char '\\') ≠ '"' := by decide
  conv => lhs; unfold readString
  simp only [hquote, if_true, if_false, hunit]
  split
  · rename_i heq
    obtain rfl := Option.some.inj heq
    exact if_neg fun h => absurd h.1 (by omega)
  · rename_i heq
    rw [Option.some.inj heq]
  · rename_i after _ _ _ hshort
    cases after with
    | nil => exact absurd rfl htail
    | cons x after => exact (hshort unit x after rfl rfl).elim

/-- A character of a string is read as it was written. -/
theorem readString_escapeChar (hc : c.isHalf = false) (htail : tail ≠ []) :
    readString start (escapeChar false c ++ tail) = consRead c (readString start tail) := by
  unfold escapeChar
  split_ifs with h₁ h₂ h₃ h₄ h₅ h₆ h₇ h₈ h₉
  · subst h₁
    exact readString_escape (by decide) rfl
  · subst h₂
    exact readString_escape (by decide) rfl
  · subst h₃
    exact readString_escape (by decide) rfl
  · subst h₄
    exact readString_escape (by decide) rfl
  · subst h₅
    exact readString_escape (by decide) rfl
  · subst h₆
    exact readString_escape (by decide) rfl
  · subst h₇
    exact readString_escape (by decide) rfl
  · obtain ⟨a, b, d, e, hescape, hunit, -⟩ := exists_unitEscape h₈
    rw [hescape]
    have h : readString start ('\\' :: 'u' :: a :: b :: d :: e :: tail) =
        consRead (.ofValue c.value) (readString start tail) := readString_unit hunit (by omega) htail
    rwa [CodePoint.ofValue_value] at h
  · exact h₉.1.elim
  · rw [List.singleton_append]
    conv => lhs; unfold readString
    simp only [h₁, h₂, h₈, if_false]

theorem readString_flatMap {s : Text} (hs : ∀ c ∈ s, c.isHalf = false) (rest : Text) :
    readString start (s.flatMap (escapeChar false) ++ .char '"' :: rest) = .ok (s, rest) := by
  induction s with
  | nil => exact readString_quote
  | cons c s ih =>
    rw [List.flatMap_cons, List.append_assoc,
      readString_escapeChar (hs c List.mem_cons_self) (by simp),
      ih fun d hd => hs d (List.mem_cons_of_mem c hd)]
    rfl

end Strings

/-- A string is read back after its opening quote. -/
theorem exists_writeString {s : Text} (hs : ∀ c ∈ s, c.isHalf = false) :
    ∃ body, writeString false s = .char '"' :: body ∧ IsClean (writeString false s) ∧
      ∀ start rest, readString start (body ++ rest) = .ok (s, rest) := by
  refine ⟨s.flatMap (escapeChar false) ++ [.char '"'], rfl, ?_, fun start rest => ?_⟩
  · refine .cons (by decide) (.append (.flatMap fun c hc => ?_) (by decide))
    exact isClean_escapeChar (hs c hc)
  · rw [List.append_assoc]
    exact readString_flatMap hs rest

end HttpWorkbench.Json
