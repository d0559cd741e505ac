import HttpWorkbench.Export.Escape
import HttpWorkbench.Proofs.Json.Grammar

/-!
# Reading string literals

A string literal is read from behind its opening quotes: it ends at the first place where its quotes
stand outside every unit, and its value is what its units stand for, one after the other. A language
says which quotes these are and which characters make up a unit.
-/

namespace HttpWorkbench.Export

/-- The rules of a kind of string literal. -/
structure LiteralRules where
  quotes : Text
  /-- What stands for the unit that a character begins in front of a text, and how many characters
  of the text belong to the unit; none for a unit that is refused. -/
  unit : CodePoint → Text → Option (Text × Nat)

namespace LiteralRules

/-- The value of a literal and the text behind it, after passing over the first `skip` characters. -/
def readAfter (rules : LiteralRules) : Nat → Text → Option (Text × Text)
  | _, [] => none
  | skip + 1, _ :: rest => readAfter rules skip rest
  | 0, c :: rest =>
    if rules.quotes.isPrefixOf (c :: rest) then some ([], (c :: rest).drop rules.quotes.length)
    else
      match rules.unit c rest with
      | none => none
      | some (image, more) =>
        (readAfter rules more rest).map fun (value, behind) => (image ++ value, behind)

/-- The value of a literal whose opening quotes stand before the text, and the text behind it. -/
def read (rules : LiteralRules) (source : Text) : Option (Text × Text) := rules.readAfter 0 source

variable {rules : LiteralRules}

theorem readAfter_append (xs ys : Text) : rules.readAfter xs.length (xs ++ ys) = rules.read ys := by
  induction xs with
  | nil => rfl
  | cons x xs ih => exact ih

/-- Quotes end the literal. -/
theorem read_quotes {c : CodePoint} {cs : Text} (hquotes : rules.quotes = c :: cs) (behind : Text) :
    rules.read (rules.quotes ++ behind) = some ([], behind) := by
  have hbegins : rules.quotes.isPrefixOf (rules.quotes ++ behind) = true :=
    List.isPrefixOf_iff_prefix.mpr (List.prefix_append _ _)
  have hdrop : (rules.quotes ++ behind).drop rules.quotes.length = behind := List.drop_left
  rw [hquotes, List.cons_append] at hbegins hdrop ⊢
  rw [read, readAfter, hquotes, if_pos hbegins, hdrop]

/-- A text that does not begin with the first of the quotes does not begin with the quotes. -/
theorem not_quotes_of_ne {q c : CodePoint} {qs : Text} (hquotes : rules.quotes = q :: qs) (h : c ≠ q)
    (rest : Text) : ¬rules.quotes <+: c :: rest := by
  rw [hquotes, List.cons_prefix_cons]
  exact fun hbegins => h hbegins.1.symm

/-- A unit is read before what follows it. -/
theorem read_unit {c : CodePoint} {cs image source value behind : Text}
    (hquotes : ¬rules.quotes <+: c :: (cs ++ source))
    (hunit : rules.unit c (cs ++ source) = some (image, cs.length))
    (h : rules.read source = some (value, behind)) :
    rules.read (c :: (cs ++ source)) = some (image ++ value, behind) := by
  have hbegins : ¬rules.quotes.isPrefixOf (c :: (cs ++ source)) = true := by
    rwa [List.isPrefixOf_iff_prefix]
  rw [read, readAfter, if_neg hbegins, hunit]
  simp only [readAfter_append, h, Option.map_some]

/-- The literal ends before `behind`, its value is no longer than the body that it was written for,
and is that body exactly under a condition. -/
def Denotes (rules : LiteralRules) (source body behind : Text) (same : Prop) : Prop :=
  ∃ value, rules.read source = some (value, behind) ∧ value.length ≤ body.length ∧
    (value = body ↔ same)

/-- Parts that are no longer than their counterparts put together give the same text only if they are
the same. -/
theorem append_eq_append_iff_of_length_le {as bs cs ds : Text} (hac : as.length ≤ cs.length)
    (hbd : bs.length ≤ ds.length) : as ++ bs = cs ++ ds ↔ as = cs ∧ bs = ds := by
  constructor
  · intro h
    have hlength := congrArg List.length h
    rw [List.length_append, List.length_append] at hlength
    exact List.append_inj h (by omega)
  · rintro ⟨rfl, rfl⟩
    rfl

/-- A unit that stands for no more than a part of the body was written for. -/
theorem Denotes.unit {source body behind : Text} {same same' : Prop}
    (h : rules.Denotes source body behind same) (c : CodePoint) (cs image part : Text)
    (hquotes : ¬rules.quotes <+: c :: (cs ++ source))
    (hunit : rules.unit c (cs ++ source) = some (image, cs.length))
    (hlength : image.length ≤ part.length) (hsame : same' ↔ image = part ∧ same) :
    rules.Denotes (c :: (cs ++ source)) (part ++ body) behind same' := by
  obtain ⟨value, hread, hle, hvalue⟩ := h
  refine ⟨image ++ value, read_unit hquotes hunit hread, ?_, ?_⟩
  · rw [List.length_append, List.length_append]
    omega
  · rw [append_eq_append_iff_of_length_le hlength hle, hvalue, hsame]

theorem Denotes.congr {source body behind : Text} {same same' : Prop}
    (h : rules.Denotes source body behind same) (hsame : same' ↔ same) :
    rules.Denotes source body behind same' := by
  rw [propext hsame]
  exact h

end LiteralRules

/-- The digits of an escape are neither quotes nor backslashes, and no more is its letter. -/
theorem ne_of_mem_digits {a b c d : CodePoint} {unit : Nat}
    (hunit : Json.hexUnit? a b c d = some unit) :
    ∀ e ∈ [.char 'u', a, b, c, d], e ≠ '\x27' ∧ e ≠ '\\' := by
  refine List.forall_mem_cons.mpr ⟨by decide, fun e he => ?_⟩
  obtain ⟨n, hn⟩ := Json.exists_hexValue?_of_hexUnit? hunit e he
  constructor
  · rintro rfl
    cases hn
  · rintro rfl
    cases hn

/-- An escape of a sixteen-bit unit is written as it is. -/
theorem apply_digits {a b c d : CodePoint} {unit : Nat}
    (hunit : Json.hexUnit? a b c d = some unit) (rest : Text) :
    (Escape.backslash '\x27').apply (.char '\\' :: .char 'u' :: a :: b :: c :: d :: rest) =
      .char '\\' :: ([.char 'u', a, b, c, d] ++ (Escape.backslash '\x27').apply rest) := by
  have hnone : (Escape.backslash '\x27').mark ∉ [.char 'u', a, b, c, d] :=
    fun hmem => (ne_of_mem_digits hunit _ hmem).1 rfl
  rw [Escape.apply_cons_of_ne (by decide), ← Escape.apply_of_notMem hnone, ← Escape.apply_append]
  rfl

end HttpWorkbench.Export
