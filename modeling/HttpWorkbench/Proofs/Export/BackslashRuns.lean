import HttpWorkbench.Proofs.Export.Literal
import Mathlib.Algebra.Group.Nat.Even
import Mathlib.Data.List.Induction

/-!
# Runs of backslashes in quoted literals

A text is put between quotes with a backslash before each of its own quotes and nothing else changed.
In the literal a backslash takes whatever follows it, so a backslash of the text takes its neighbour,
the one that was put before a quote included. Where the literal ends is a question of parity: the
runs of backslashes that matter are those that stand right before a quote or at the end.
-/

namespace HttpWorkbench.Export

/-- The literals between two quotes in which a backslash takes the next character, with their contents
as they are written. -/
def LiteralRules.backslashed (quote : CodePoint) : LiteralRules where
  quotes := [quote]
  unit c rest :=
    if c = '\\' then rest.head?.map fun d => ([c, d], 1) else some ([c], 0)

/-- Whenever backslashes stand in a row, with no backslash before them and a quote or nothing behind
them, their number is even. -/
def EvenRuns (quote : CodePoint) (text : Text) : Prop :=
  ∀ (before after : Text) (n : Nat),
    text = before ++ (List.replicate n (.char '\\') ++ after) →
    before.getLast? ≠ some (.char '\\') → after = [] ∨ after.head? = some quote → Even n

/-- The text without the backslashes before its quotes, taken off from the left. -/
def dropEscapes (quote : CodePoint) : Text → Text
  | [] => []
  | [c] => [c]
  | c :: d :: rest =>
    if c = '\\' ∧ d = quote then quote :: dropEscapes quote rest
    else c :: dropEscapes quote (d :: rest)

section Scan

variable {quote : CodePoint}

/-- A backslash takes the next character. -/
theorem read_backslash (hquote : quote ≠ '\\') (d : CodePoint) (source : Text) :
    (LiteralRules.backslashed quote).read (.char '\\' :: d :: source) =
      ((LiteralRules.backslashed quote).read source).map fun (contents, behind) =>
        (.char '\\' :: d :: contents, behind) := by
  simp [LiteralRules.read, LiteralRules.readAfter, LiteralRules.backslashed, hquote]

/-- Any other character than a quote or a backslash stands for itself. -/
theorem read_char {c : CodePoint} (hc : c ≠ quote) (hslash : c ≠ '\\') (source : Text) :
    (LiteralRules.backslashed quote).read (c :: source) =
      ((LiteralRules.backslashed quote).read source).map fun (contents, behind) =>
        (c :: contents, behind) := by
  simp [LiteralRules.read, LiteralRules.readAfter, LiteralRules.backslashed, Ne.symm hc, hslash]

/-- The first quote that no backslash takes ends the literal. -/
theorem read_quote (source : Text) :
    (LiteralRules.backslashed quote).read (quote :: source) = some ([], source) :=
  LiteralRules.read_quotes rfl source

/-- One character that is no quote does not end a literal. -/
theorem read_singleton {c : CodePoint} (hc : c ≠ quote) :
    (LiteralRules.backslashed quote).read [c] = none := by
  simp [LiteralRules.read, LiteralRules.readAfter, LiteralRules.backslashed, Ne.symm hc]
  split <;> rfl

/-- The contents, the quote and what stands behind it make up the text. -/
theorem eq_of_read (hquote : quote ≠ '\\') {source contents behind : Text}
    (h : (LiteralRules.backslashed quote).read source = some (contents, behind)) :
    source = contents ++ quote :: behind := by
  induction source using List.twoStepInduction generalizing contents with
  | nil => cases h
  | singleton c =>
    by_cases hc : c = quote
    · rw [hc, read_quote] at h
      cases h
      rw [hc, List.nil_append]
    · rw [read_singleton hc] at h
      cases h
  | cons_cons c d source ih ihd =>
    by_cases hc : c = quote
    · rw [hc, read_quote] at h
      cases h
      rw [hc, List.nil_append]
    by_cases hslash : c = '\\'
    · rw [hslash, read_backslash hquote, Option.map_eq_some_iff] at h
      obtain ⟨⟨more, behind'⟩, hread, heq⟩ := h
      cases heq
      rw [hslash, ih hread]
      rfl
    · rw [read_char hc hslash, Option.map_eq_some_iff] at h
      obtain ⟨⟨more, behind'⟩, hread, heq⟩ := h
      cases heq
      rw [ihd d hread]
      rfl

/-- The literal ends right before a text. -/
def EndsBefore (quote : CodePoint) (source behind : Text) : Prop :=
  ∃ contents, (LiteralRules.backslashed quote).read source = some (contents, behind)

theorem endsBefore_quote_iff (source behind : Text) :
    EndsBefore quote (quote :: source) behind ↔ source = behind := by
  simp [EndsBefore, read_quote]

theorem endsBefore_char_iff {c : CodePoint} (hc : c ≠ quote) (hslash : c ≠ '\\')
    (source behind : Text) :
    EndsBefore quote (c :: source) behind ↔ EndsBefore quote source behind := by
  simp [EndsBefore, read_char hc hslash]

theorem endsBefore_backslash_iff (hquote : quote ≠ '\\') (d : CodePoint) (source behind : Text) :
    EndsBefore quote (.char '\\' :: d :: source) behind ↔ EndsBefore quote source behind := by
  simp [EndsBefore, read_backslash hquote]

/-- No literal ends before a text that is as long as what it is read from. -/
theorem not_endsBefore_of_length_le (hquote : quote ≠ '\\') {source behind : Text}
    (hlength : source.length ≤ behind.length) : ¬EndsBefore quote source behind := by
  rintro ⟨contents, hread⟩
  rw [eq_of_read hquote hread, List.length_append, List.length_cons] at hlength
  omega

end Scan

section Runs

variable {quote : CodePoint}

theorem evenRuns_nil : EvenRuns quote [] := by
  intro before after n heq _ _
  simp at heq
  simp [heq]

/-- A run of backslashes does not reach over another character. -/
theorem evenRuns_cons_iff {c : CodePoint} (hslash : c ≠ '\\') (text : Text) :
    EvenRuns quote (c :: text) ↔ EvenRuns quote text := by
  constructor
  · intro h before after n heq hlast hafter
    refine h (c :: before) after n (by rw [heq]; rfl) ?_ hafter
    cases before with
    | nil => simpa using hslash
    | cons d before => simpa using hlast
  · intro h before after n heq hlast hafter
    cases before with
    | nil =>
      cases n with
      | zero => exact Even.zero
      | succ n => exact absurd (List.cons.inj heq).1 hslash
    | cons d before =>
      refine h before after n (List.cons.inj heq).2 ?_ hafter
      cases before with
      | nil => simp
      | cons e before => simpa using hlast

/-- Two backslashes more at the front change no parity. -/
theorem evenRuns_backslashes_iff (hquote : quote ≠ '\\') (text : Text) :
    EvenRuns quote (.char '\\' :: .char '\\' :: text) ↔ EvenRuns quote text := by
  constructor
  · intro h before after n heq hlast hafter
    cases before with
    | nil =>
      have heven := h [] after (n + 2) (by rw [heq]; rfl) (by simp) hafter
      simpa [parity_simps] using heven
    | cons d before =>
      exact h (.char '\\' :: .char '\\' :: d :: before) after n (by rw [heq]; rfl)
        (by simpa using hlast) hafter
  · intro h before after n heq hlast hafter
    match before, n with
    | [], 0 => exact Even.zero
    | [], 1 =>
      have hrest : .char '\\' :: text = after := (List.cons.inj heq).2
      simp [← hrest, Ne.symm hquote] at hafter
    | [], n + 2 =>
      have hrest := (List.cons.inj (List.cons.inj heq).2).2
      simpa [parity_simps] using h [] after n hrest (by simp) hafter
    | [d], n => exact absurd (congrArg some (List.cons.inj heq).1.symm) hlast
    | d :: e :: before, n =>
      obtain ⟨rfl, hrest⟩ := List.cons.inj (List.cons.inj heq).2
      refine h before after n hrest ?_ hafter
      cases before with
      | nil => simp
      | cons f before => simpa using hlast

/-- A backslash before an ordinary character belongs to no run that matters. -/
theorem evenRuns_backslash_iff {c : CodePoint} (hc : c ≠ quote) (hslash : c ≠ '\\') (text : Text) :
    EvenRuns quote (.char '\\' :: c :: text) ↔ EvenRuns quote text := by
  rw [← evenRuns_cons_iff hslash text]
  constructor
  · intro h before after n heq hlast hafter
    match before, n with
    | [], 0 => exact Even.zero
    | [], n + 1 => exact absurd (List.cons.inj heq).1 hslash
    | d :: before, n =>
      exact h (.char '\\' :: d :: before) after n (by rw [heq]; rfl) (by simpa using hlast) hafter
  · intro h before after n heq hlast hafter
    match before, n with
    | [], 0 => exact Even.zero
    | [], 1 =>
      have hrest : c :: text = after := (List.cons.inj heq).2
      simp [← hrest, hc] at hafter
    | [], n + 2 => exact absurd (List.cons.inj (List.cons.inj heq).2).1 hslash
    | [d], n => exact absurd (congrArg some (List.cons.inj heq).1.symm) hlast
    | d :: e :: before, n =>
      exact h (e :: before) after n (List.cons.inj heq).2 (by simpa using hlast) hafter

/-- A single backslash before a quote or at the end is a run of odd length. -/
theorem not_evenRuns_backslash {after : Text} (hafter : after = [] ∨ after.head? = some quote) :
    ¬EvenRuns quote (.char '\\' :: after) := fun h =>
  absurd (h [] after 1 rfl (by simp) hafter) (by decide)

end Runs

section Escaped

variable {quote : CodePoint}

/-- The written quote ends the literal exactly if every run of backslashes before a quote or at the
end is even. -/
theorem endsBefore_apply_iff (hquote : quote ≠ '\\') (text behind : Text) :
    EndsBefore quote ((Escape.backslash quote).apply text ++ quote :: behind) behind ↔
      EvenRuns quote text := by
  have hplain {c : CodePoint} (hc : c ≠ quote) (rest : Text) :
      (Escape.backslash quote).apply (c :: rest) = c :: (Escape.backslash quote).apply rest :=
    Escape.apply_cons_of_ne hc rest
  have hmark (rest : Text) : (Escape.backslash quote).apply (quote :: rest) =
      .char '\\' :: quote :: (Escape.backslash quote).apply rest := Escape.apply_cons_mark _ rest
  -- A backslash of the text takes the next character of the escaped text, so two at a time.
  induction text using List.twoStepInduction with
  | nil => exact iff_of_true (endsBefore_quote_iff behind behind |>.mpr rfl) evenRuns_nil
  | singleton c =>
    by_cases hc : c = quote
    · rw [hc, hmark, List.cons_append, List.cons_append, endsBefore_backslash_iff hquote,
        evenRuns_cons_iff hquote]
      exact iff_of_true ((endsBefore_quote_iff behind behind).mpr rfl) evenRuns_nil
    by_cases hslash : c = '\\'
    · rw [hslash, hplain (Ne.symm hquote), List.cons_append, Escape.apply_nil, List.nil_append,
        endsBefore_backslash_iff hquote]
      exact iff_of_false (not_endsBefore_of_length_le hquote le_rfl)
        (not_evenRuns_backslash (.inl rfl))
    · rw [hplain hc, List.cons_append, endsBefore_char_iff hc hslash, evenRuns_cons_iff hslash]
      exact iff_of_true ((endsBefore_quote_iff behind behind).mpr rfl) evenRuns_nil
  | cons_cons c d text ih ihd =>
    by_cases hc : c = quote
    · rw [hc, hmark, List.cons_append, List.cons_append, endsBefore_backslash_iff hquote,
        evenRuns_cons_iff hquote]
      exact ihd d
    by_cases hslash : c = '\\'
    · rw [hslash, hplain (Ne.symm hquote)]
      by_cases hd : d = quote
      · rw [hd, hmark, List.cons_append, List.cons_append, List.cons_append,
          endsBefore_backslash_iff hquote, endsBefore_quote_iff]
        refine iff_of_false (fun heq => ?_) (not_evenRuns_backslash (.inr rfl))
        have hlength := congrArg List.length heq
        simp at hlength
        omega
      · rw [hplain hd, List.cons_append, List.cons_append, endsBefore_backslash_iff hquote]
        refine ih.trans ?_
        by_cases hdslash : d = '\\'
        · rw [hdslash, evenRuns_backslashes_iff hquote]
        · rw [evenRuns_backslash_iff hd hdslash]
    · rw [hplain hc, List.cons_append, endsBefore_char_iff hc hslash, evenRuns_cons_iff hslash]
      exact ihd d

theorem dropEscapes_quote (rest : Text) :
    dropEscapes quote (.char '\\' :: quote :: rest) = quote :: dropEscapes quote rest :=
  if_pos ⟨rfl, rfl⟩

theorem dropEscapes_cons_of_ne {c : CodePoint} (hslash : c ≠ '\\') (rest : Text) :
    dropEscapes quote (c :: rest) = c :: dropEscapes quote rest := by
  cases rest with
  | nil => rfl
  | cons d rest => exact if_neg fun h => hslash h.1

/-- Without backslashes of its own, a text comes back when the ones before its quotes are left
out. -/
theorem dropEscapes_apply {text : Text} (htext : .char '\\' ∉ text) :
    dropEscapes quote ((Escape.backslash quote).apply text) = text := by
  induction text with
  | nil => rfl
  | cons c text ih =>
    rw [List.mem_cons, not_or] at htext
    by_cases hc : c = quote
    · subst hc
      have hmark : (Escape.backslash c).apply (c :: text) =
          .char '\\' :: c :: (Escape.backslash c).apply text := Escape.apply_cons_mark _ text
      rw [hmark, dropEscapes_quote, ih htext.2]
    · rw [Escape.apply_cons_of_ne hc, dropEscapes_cons_of_ne (Ne.symm htext.1), ih htext.2]

/-- Without backslashes, there are no runs at all. -/
theorem evenRuns_of_notMem {text : Text} (htext : .char '\\' ∉ text) : EvenRuns quote text := by
  induction text with
  | nil => exact evenRuns_nil
  | cons c text ih =>
    rw [List.mem_cons, not_or] at htext
    exact (evenRuns_cons_iff (Ne.symm htext.1) text).mpr (ih htext.2)

/-- The contents of a literal that ends at the quote behind the escaped text are that text. -/
theorem read_apply_eq_some_iff (hquote : quote ≠ '\\') (text behind : Text) :
    (LiteralRules.backslashed quote).read
        ((Escape.backslash quote).apply text ++ (quote :: behind)) =
      some ((Escape.backslash quote).apply text, behind) ↔ EvenRuns quote text := by
  rw [← endsBefore_apply_iff hquote text behind]
  refine ⟨fun hread => ⟨_, hread⟩, fun ⟨contents, hread⟩ => ?_⟩
  rw [hread, List.append_cancel_right (eq_of_read hquote hread)]

/-- A quoted literal ends at the quote that is written behind the escaped text exactly if every run
of backslashes right before a quote of the text or at its end has an even length; and without
backslashes of its own, the text is the contents with the backslashes before the quotes left out. -/
theorem quotedLiteral_ends_iff (text behind : Text) (quote : CodePoint)
    (hquote : quote = '"' ∨ quote = '\x27') :
    ((LiteralRules.backslashed quote).read
        ((Escape.backslash quote).apply text ++ (quote :: behind)) =
      some ((Escape.backslash quote).apply text, behind) ↔ EvenRuns quote text) ∧
    (.char '\\' ∉ text → ∃ contents,
      (LiteralRules.backslashed quote).read
        ((Escape.backslash quote).apply text ++ (quote :: behind)) = some (contents, behind) ∧
      dropEscapes quote contents = text) := by
  have hslash : quote ≠ '\\' := by
    rcases hquote with rfl | rfl <;> decide
  have hends := read_apply_eq_some_iff hslash text behind
  exact ⟨hends, fun htext =>
    ⟨_, hends.mpr (evenRuns_of_notMem htext), dropEscapes_apply htext⟩⟩

/-- Two backslashes before a quote leave the end of the literal where it is written, one moves it, and
a text with quotes and no backslash comes back. -/
theorem quotedLiteral_ends_pair :
    (CodePoint.char '"' = '"' ∨ CodePoint.char '"' = '\x27') ∧
    (LiteralRules.backslashed '"').read
        ((Escape.backslash '"').apply "a\\\\\"b" ++ (.char '"' :: ")")) =
      some ((Escape.backslash '"').apply "a\\\\\"b", (")" : Text)) ∧
    (LiteralRules.backslashed '"').read
        ((Escape.backslash '"').apply "a\\\"b" ++ (.char '"' :: ")")) ≠
      some ((Escape.backslash '"').apply "a\\\"b", (")" : Text)) ∧
    ∃ contents, (LiteralRules.backslashed '\x27').read
        ((Escape.backslash '\x27').apply "it's 'x" ++ (.char '\x27' :: ")")) =
      some (contents, (")" : Text)) ∧ dropEscapes '\x27' contents = ("it's 'x" : Text) := by
  have heven : EvenRuns '"' "a\\\\\"b" := by
    refine (evenRuns_cons_iff (by decide) _).mpr ((evenRuns_backslashes_iff (by decide) _).mpr ?_)
    exact evenRuns_of_notMem (by decide)
  have hodd : ¬EvenRuns '"' "a\\\"b" := fun h =>
    not_evenRuns_backslash (.inr rfl) ((evenRuns_cons_iff (by decide) _).mp h)
  exact ⟨.inl rfl, (quotedLiteral_ends_iff "a\\\\\"b" ")" '"' (.inl rfl)).1.mpr heven,
    mt (quotedLiteral_ends_iff "a\\\"b" ")" '"' (.inl rfl)).1.mp hodd,
    (quotedLiteral_ends_iff "it's 'x" ")" '\x27' (.inr rfl)).2 (by decide)⟩

end Escaped

end HttpWorkbench.Export
