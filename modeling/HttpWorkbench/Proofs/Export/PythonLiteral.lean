import HttpWorkbench.Proofs.Export.Literal

/-!
# Triple-quoted strings of Python

Between tripled single quotes, a backslash begins an escape, an escape that is not known stays as it
is, and every line end is read as a line feed. So the text of a document between such quotes loses all
its escapes but that of the slash.
-/

namespace HttpWorkbench.Export.Python

open Json (Escaped escapeMarks)
open LiteralRules (not_quotes_of_ne)

/-- The characters that a backslash and a letter stand for. -/
def letterEscape? (c : CodePoint) : Option CodePoint :=
  if c = 'a' then some '\x07'
  else if c = 'b' then some '\x08'
  else if c = 'f' then some '\x0c'
  else if c = 'n' then some '\n'
  else if c = 'r' then some '\r'
  else if c = 't' then some '\t'
  else if c = 'v' then some '\x0b'
  else none

/-- One of the eight octal digits. -/
def isOctal (c : CodePoint) : Bool := 0x30 ≤ c.value && c.value ≤ 0x37

/-- The number that octal digits write. -/
def octalNumber (cs : Text) : Nat := cs.foldl (fun n c => n * 8 + (c.value - 0x30)) 0

/-- The number that hexadecimal digits write. -/
def hexNumber? (cs : Text) : Option Nat :=
  cs.foldlM (fun n c => (Json.hexValue? c).map fun digit => n * 16 + digit) 0

/-- The escape of a character by its number, with so many hexadecimal digits behind its letter. -/
def numberEscape? (digits : Nat) (rest : Text) : Option (Text × Nat) :=
  if rest.length < digits then none
  else
    match hexNumber? (rest.take digits) with
    | none => none
    | some n => if n < 0x110000 then some ([.ofValue n], digits + 1) else none

/-- What an escape stands for, and how many characters it has behind its backslash. The escape of a
character by its name is not read. -/
def escape? : Text → Option (Text × Nat)
  | [] => none
  | c :: rest =>
    if c = '\n' then some ([], 1)
    else if c = '\r' then some ([], if rest.head? = some (.char '\n') then 2 else 1)
    else if c = '\\' ∨ c = '\x27' ∨ c = '"' then some ([c], 1)
    else if isOctal c then
      let digits := ((c :: rest).takeWhile isOctal).take 3
      some ([.ofValue (octalNumber digits)], digits.length)
    else if c = 'x' then numberEscape? 2 rest
    else if c = 'u' then numberEscape? 4 rest
    else if c = 'U' then numberEscape? 8 rest
    else if c = 'N' then none
    else
      match letterEscape? c with
      | some d => some ([d], 1)
      | none => some (['\\', c], 1)

/-- The rules of triple-quoted strings. -/
def tripleQuoted : LiteralRules where
  quotes := "'''"
  unit c rest :=
    if c = '\\' then escape? rest
    else if c = '\r' then some (if rest.head? = some (.char '\n') then [] else ['\n'], 0)
    else some ([c], 0)

/-- The text has no carriage return, and a backslash only before a slash. -/
def OnlySlashEscapes (text : Text) : Prop :=
  .char '\r' ∉ text ∧
    ∀ before after, text = before ++ .char '\\' :: after → after.head? = some (.char '/')

theorem onlySlashEscapes_nil : OnlySlashEscapes [] := by
  refine ⟨List.not_mem_nil, fun before after h => ?_⟩
  cases before <;> cases h

theorem onlySlashEscapes_cons (c : CodePoint) (rest : Text) :
    OnlySlashEscapes (c :: rest) ↔
      c ≠ '\r' ∧ (c = '\\' → rest.head? = some (.char '/')) ∧ OnlySlashEscapes rest := by
  constructor
  · rintro ⟨hreturn, hslash⟩
    rw [List.mem_cons, not_or] at hreturn
    refine ⟨Ne.symm hreturn.1, ?_, hreturn.2, fun before after h => ?_⟩
    · rintro rfl
      exact hslash [] rest rfl
    · exact hslash (c :: before) after (by rw [h, List.cons_append])
  · rintro ⟨hc, hslash, hreturn, hrest⟩
    refine ⟨List.not_mem_cons_of_ne_of_not_mem (Ne.symm hc) hreturn, fun before after h => ?_⟩
    cases before with
    | nil =>
      obtain ⟨rfl, rfl⟩ := List.cons.inj h
      exact hslash rfl
    | cons d before => exact hrest before after (List.cons.inj h).2

/-- A character that is neither a carriage return nor a backslash changes nothing. -/
theorem onlySlashEscapes_cons_of_ne {c : CodePoint} (hreturn : c ≠ '\r') (hslash : c ≠ '\\')
    (rest : Text) : OnlySlashEscapes (c :: rest) ↔ OnlySlashEscapes rest := by
  rw [onlySlashEscapes_cons]
  exact ⟨fun h => h.2.2, fun h => ⟨hreturn, fun hc => absurd hc hslash, h⟩⟩

variable {source body behind : Text} {same : Prop}

/-- A character that is no quote and no backslash stands for itself, unless it is a carriage return,
which stands for a line feed or for nothing. -/
theorem denotes_char (h : tripleQuoted.Denotes source body behind same) {c : CodePoint}
    (hquote : c ≠ '\x27') (hslash : c ≠ '\\') :
    tripleQuoted.Denotes (c :: source) (c :: body) behind (c ≠ '\r' ∧ same) := by
  by_cases hreturn : c = '\r'
  · subst hreturn
    refine h.unit '\r' [] (if source.head? = some (.char '\n') then [] else ['\n']) ['\r']
      (not_quotes_of_ne rfl hquote _) rfl ?_ ?_
    · split <;> simp
    · split <;> simp
  · refine h.unit c [] [c] [c] (not_quotes_of_ne rfl hquote _) ?_ (Nat.le_refl _) ?_
    · simp only [tripleQuoted, if_neg hslash, if_neg hreturn]
      rfl
    · simp [hreturn]

/-- What an escape of one letter or mark stands for; only that of the slash stays. -/
theorem exists_short_image {c : CodePoint} (hc : c ∈ escapeMarks) :
    ∃ image : Text, (∀ rest, tripleQuoted.unit '\\' ([c] ++ rest) = some (image, 1)) ∧
      image.length ≤ 2 ∧ (c = '/' ↔ image = [.char '\\', c]) := by
  have hmarks : c = '"' ∨ c = '\\' ∨ c = '/' ∨ c = 'b' ∨ c = 'f' ∨ c = 'n' ∨ c = 'r' ∨ c = 't' := by
    simpa [escapeMarks, Text.ofString, Text.ofChars] using hc
  rcases hmarks with rfl | rfl | rfl | rfl | rfl | rfl | rfl | rfl
  all_goals exact ⟨_, fun _ => rfl, by decide, by decide⟩

theorem lt_of_hexValue? {c : CodePoint} {n : Nat} (h : Json.hexValue? c = some n) : n < 16 := by
  unfold Json.hexValue? at h
  simp only at h
  split at h
  · obtain rfl := Option.some.inj h
    omega
  · split at h
    · obtain rfl := Option.some.inj h
      omega
    · split at h
      · obtain rfl := Option.some.inj h
        omega
      · cases h

/-- The escape of a sixteen-bit unit stands for one character. -/
theorem exists_digits_image {a b c d : CodePoint} {unit : Nat} (h : Json.hexUnit? a b c d = some unit)
    (rest : Text) :
    ∃ image, tripleQuoted.unit '\\' ([.char 'u', a, b, c, d] ++ rest) = some ([image], 5) := by
  unfold Json.hexUnit? at h
  obtain ⟨k, hk, h⟩ := Option.bind_eq_some_iff.mp h
  obtain ⟨l, hl, h⟩ := Option.bind_eq_some_iff.mp h
  obtain ⟨m, hm, h⟩ := Option.bind_eq_some_iff.mp h
  obtain ⟨n, hn, -⟩ := Option.bind_eq_some_iff.mp h
  have hnumber : hexNumber? [a, b, c, d] = some (((k * 16 + l) * 16 + m) * 16 + n) := by
    simp [hexNumber?, hk, hl, hm, hn]
  have hbound : ((k * 16 + l) * 16 + m) * 16 + n < 0x110000 := by
    have hk' := lt_of_hexValue? hk
    have hl' := lt_of_hexValue? hl
    have hm' := lt_of_hexValue? hm
    have hn' := lt_of_hexValue? hn
    omega
  refine ⟨.ofValue (((k * 16 + l) * 16 + m) * 16 + n), ?_⟩
  have hescape : numberEscape? 4 (a :: b :: c :: d :: rest) =
      some ([.ofValue (((k * 16 + l) * 16 + m) * 16 + n)], 5) := by
    have hlength : ¬(a :: b :: c :: d :: rest).length < 4 := by simp
    have htake : (a :: b :: c :: d :: rest).take 4 = [a, b, c, d] := rfl
    simp only [numberEscape?, if_neg hlength, htake, hnumber, if_pos hbound]
  exact hescape

/-- Between the tripled quotes, the written text of a document ends where the closing quotes stand, and
stands for that text exactly if its escapes are those of slashes and it has no carriage return. -/
theorem denotes_escaped {p : CodePoint → Prop} (h : Escaped p body) (behind : Text) :
    tripleQuoted.Denotes ((Escape.backslash '\x27').apply body ++ ("'''" ++ behind)) body behind
      (OnlySlashEscapes body) := by
  induction h with
  | nil =>
    have hread : tripleQuoted.read ("'''" ++ behind) = some ([], behind) :=
      LiteralRules.read_quotes rfl behind
    exact ⟨[], hread, Nat.le_refl _, iff_of_true rfl onlySlashEscapes_nil⟩
  | @plain c rest _ hslash _ ih =>
    have hsame : OnlySlashEscapes (c :: rest) ↔ c ≠ '\r' ∧ OnlySlashEscapes rest := by
      rw [onlySlashEscapes_cons]
      exact and_congr_right fun _ => and_iff_right fun hc => absurd hc hslash
    by_cases hquote : c = '\x27'
    · subst hquote
      have hquoted : OnlySlashEscapes (.char '\x27' :: rest) ↔
          [CodePoint.char '\x27'] = [CodePoint.char '\x27'] ∧ OnlySlashEscapes rest :=
        hsame.trans (and_congr_left fun _ => iff_of_true (by decide) rfl)
      exact ih.unit '\\' ['\x27'] ['\x27'] ['\x27'] (not_quotes_of_ne rfl (by decide) _) rfl
        (Nat.le_refl _) hquoted
    · rw [Escape.apply_cons_of_ne hquote]
      exact (denotes_char ih hquote hslash).congr hsame
  | @short c rest hc _ ih =>
    have hquote : c ≠ '\x27' := fun hc' => absurd (hc' ▸ hc) (by decide)
    have hreturn : c ≠ '\r' := fun hc' => absurd (hc' ▸ hc) (by decide)
    obtain ⟨image, hunit, hlength, himage⟩ := exists_short_image hc
    rw [Escape.apply_cons_of_ne (by decide), Escape.apply_cons_of_ne hquote]
    refine ih.unit '\\' [c] image [.char '\\', c] (not_quotes_of_ne rfl (by decide) _) (hunit _)
      hlength ?_
    rw [onlySlashEscapes_cons, ← himage]
    by_cases hslash : c = '\\'
    · subst hslash
      simp
    · rw [onlySlashEscapes_cons_of_ne hreturn hslash]
      simp
  | @digits a b c d unit rest hunit _ ih =>
    obtain ⟨image, himage⟩ := exists_digits_image hunit
      ((Escape.backslash '\x27').apply rest ++ ("'''" ++ behind))
    rw [apply_digits hunit]
    refine ih.unit '\\' [.char 'u', a, b, c, d] [image] [.char '\\', .char 'u', a, b, c, d]
      (not_quotes_of_ne rfl (by decide) _) himage (by simp) ?_
    rw [onlySlashEscapes_cons]
    simp

end HttpWorkbench.Export.Python
