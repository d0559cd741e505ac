import HttpWorkbench.Proofs.Export.Literal

/-!
# Single-quoted strings of PHP

Between single quotes, a backslash before a quote or a backslash stands for that character, and every
other backslash stays. So the text of a document between such quotes keeps all its escapes but the
doubled backslash.
-/

namespace HttpWorkbench.Export.Php

open Json (Escaped)
open LiteralRules (not_quotes_of_ne)

/-- The rules of single-quoted strings. -/
def singleQuoted : LiteralRules where
  quotes := "'"
  unit c rest :=
    if c = '\\' then
      match rest with
      | .char '\x27' :: _ => some (['\x27'], 1)
      | .char '\\' :: _ => some (['\\'], 1)
      | _ => some (['\\'], 0)
    else some ([c], 0)

/-- The text has no two backslashes side by side. -/
def NoDoubledBackslash (text : Text) : Prop := ¬("\\\\" : Text) <:+: text

theorem noDoubledBackslash_nil : NoDoubledBackslash [] := by
  intro h
  cases List.infix_nil.mp h

theorem noDoubledBackslash_cons (c : CodePoint) (rest : Text) :
    NoDoubledBackslash (c :: rest) ↔
      ¬(c = '\\' ∧ rest.head? = some (.char '\\')) ∧ NoDoubledBackslash rest := by
  have hbegins : ("\\\\" : Text) <+: c :: rest ↔ c = '\\' ∧ rest.head? = some (.char '\\') := by
    change [CodePoint.char '\\', .char '\\'] <+: c :: rest ↔ _
    rw [List.cons_prefix_cons]
    cases rest with
    | nil => simp
    | cons d rest => simp [List.cons_prefix_cons, eq_comm]
  rw [NoDoubledBackslash, List.infix_cons_iff, not_or, hbegins]
  rfl

/-- Characters that are no backslash change nothing. -/
theorem noDoubledBackslash_cons_of_ne {c : CodePoint} (h : c ≠ '\\') (rest : Text) :
    NoDoubledBackslash (c :: rest) ↔ NoDoubledBackslash rest := by
  rw [noDoubledBackslash_cons]
  exact and_iff_right fun hc => h hc.1

theorem noDoubledBackslash_append {cs : Text} (h : .char '\\' ∉ cs) (rest : Text) :
    NoDoubledBackslash (cs ++ rest) ↔ NoDoubledBackslash rest := by
  induction cs with
  | nil => rfl
  | cons c cs ih =>
    rw [List.mem_cons, not_or] at h
    rw [List.cons_append, noDoubledBackslash_cons_of_ne (Ne.symm h.1), ih h.2]

variable {source body behind : Text} {same : Prop}

/-- A character that is no quote and no backslash stands for itself. -/
theorem denotes_char (h : singleQuoted.Denotes source body behind same) {c : CodePoint}
    (hquote : c ≠ '\x27') (hslash : c ≠ '\\') :
    singleQuoted.Denotes (c :: source) (c :: body) behind same := by
  refine h.unit c [] [c] [c] (not_quotes_of_ne rfl hquote _) ?_ (Nat.le_refl _) (by simp)
  simp only [singleQuoted, if_neg hslash]
  rfl

/-- A row of such characters stands for itself. -/
theorem denotes_chars (h : singleQuoted.Denotes source body behind same) {cs : Text}
    (hcs : ∀ c ∈ cs, c ≠ '\x27' ∧ c ≠ '\\') :
    singleQuoted.Denotes (cs ++ source) (cs ++ body) behind same := by
  induction cs with
  | nil => exact h
  | cons c cs ih =>
    obtain ⟨hc, hcs⟩ := List.forall_mem_cons.mp hcs
    exact denotes_char (ih hcs) hc.1 hc.2

/-- A backslash before any other character than a quote or a backslash stands for itself. -/
theorem denotes_backslash {c : CodePoint}
    (h : singleQuoted.Denotes (c :: source) body behind same) (hquote : c ≠ '\x27')
    (hslash : c ≠ '\\') :
    singleQuoted.Denotes (.char '\\' :: c :: source) (.char '\\' :: body) behind same := by
  refine h.unit '\\' [] ['\\'] ['\\'] (not_quotes_of_ne rfl (by decide) _) ?_ (Nat.le_refl _)
    (by simp)
  simp only [singleQuoted, if_pos, List.nil_append]
  split
  · rename_i hrest
    exact absurd (List.cons.inj hrest).1 hquote
  · rename_i hrest
    exact absurd (List.cons.inj hrest).1 hslash
  · rfl

/-- Between the quotes, the written text of a document ends where the closing quote stands, and stands
for that text exactly if it has no doubled backslash. -/
theorem denotes_escaped {p : CodePoint → Prop} (h : Escaped p body) (behind : Text) :
    singleQuoted.Denotes ((Escape.backslash '\x27').apply body ++ (.char '\x27' :: behind)) body
      behind (NoDoubledBackslash body) := by
  induction h with
  | nil =>
    have hread : singleQuoted.read (.char '\x27' :: behind) = some ([], behind) :=
      LiteralRules.read_quotes rfl behind
    exact ⟨[], hread, Nat.le_refl _, iff_of_true rfl noDoubledBackslash_nil⟩
  | @plain c rest _ hslash _ ih =>
    by_cases hquote : c = '\x27'
    · subst hquote
      have hsame : NoDoubledBackslash (.char '\x27' :: rest) ↔
          [CodePoint.char '\x27'] = [CodePoint.char '\x27'] ∧ NoDoubledBackslash rest :=
        (noDoubledBackslash_cons_of_ne hslash rest).trans (and_iff_right rfl).symm
      exact ih.unit '\\' ['\x27'] ['\x27'] ['\x27'] (not_quotes_of_ne rfl (by decide) _) rfl
        (Nat.le_refl _) hsame
    · rw [Escape.apply_cons_of_ne hquote]
      exact (denotes_char ih hquote hslash).congr (noDoubledBackslash_cons_of_ne hslash rest)
  | @short c rest hc _ ih =>
    have hquote : c ≠ '\x27' := fun hc' => absurd (hc' ▸ hc) (by decide)
    rw [Escape.apply_cons_of_ne (by decide), Escape.apply_cons_of_ne hquote]
    by_cases hslash : c = '\\'
    · subst hslash
      refine ih.unit '\\' ['\\'] ['\\'] ['\\', '\\'] (not_quotes_of_ne rfl (by decide) _) rfl
        (by decide) ?_
      simp [noDoubledBackslash_cons]
    · refine (denotes_backslash (denotes_char ih hquote hslash) hquote hslash).congr ?_
      rw [noDoubledBackslash_cons, noDoubledBackslash_cons_of_ne hslash]
      simp [hslash]
  | @digits a b c d unit rest hunit _ ih =>
    have hdigits := ne_of_mem_digits hunit
    have hnone : CodePoint.char '\\' ∉ [.char 'u', a, b, c, d] :=
      fun hmem => (hdigits _ hmem).2 rfl
    rw [apply_digits hunit]
    refine (denotes_backslash (denotes_chars ih hdigits) (by decide) (by decide)).congr ?_
    have hrest := noDoubledBackslash_append hnone rest
    rw [noDoubledBackslash_cons, ← hrest]
    simp

end HttpWorkbench.Export.Php
