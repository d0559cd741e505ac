import HttpWorkbench.Proofs.Export.Literal

/-!
# Texts that can be told from what follows them

An escaped text ends at the first closing quotes that are no part of an escape. So it is read back
in front of anything, and two programs that are the same behind their openings have the same text
there and go on alike.
-/

namespace HttpWorkbench.Export

/-- Texts that differ at a place that both of them have. -/
def Diverge (s t : Text) : Prop := ¬s <+: t ∧ ¬t <+: s

instance (s t : Text) : Decidable (Diverge s t) := inferInstanceAs (Decidable (_ ∧ _))

theorem Diverge.append_ne {s t : Text} (h : Diverge s t) (x y : Text) : s ++ x ≠ t ++ y := by
  intro heq
  rcases List.prefix_or_prefix_of_prefix (List.prefix_append s x)
    (heq ▸ List.prefix_append t y) with hst | hts
  · exact h.1 hst
  · exact h.2 hts

/-- Fragments of which each, in front of anything, can be told from what follows it. -/
def Separable {α : Type} (p : α → Prop) (fragment : α → Text) : Prop :=
  ∀ ⦃a b : α⦄, p a → p b → ∀ ⦃x y : Text⦄, fragment a ++ x = fragment b ++ y → a = b ∧ x = y

/-- Fragments that can be told from what follows them can be told in a row, up to a text that begins
no fragment. -/
theorem Separable.flatMap {α : Type} {p : α → Prop} {fragment : α → Text} (h : Separable p fragment)
    {x y : Text} (hx : ∀ a rest, fragment a ++ rest ≠ x) (hy : ∀ a rest, fragment a ++ rest ≠ y)
    {as bs : List α} (has : ∀ a ∈ as, p a) (hbs : ∀ b ∈ bs, p b)
    (heq : as.flatMap fragment ++ x = bs.flatMap fragment ++ y) : as = bs ∧ x = y := by
  induction as generalizing bs with
  | nil =>
    cases bs with
    | nil => exact ⟨rfl, heq⟩
    | cons b bs =>
      rw [List.flatMap_cons, List.append_assoc] at heq
      exact absurd heq.symm (hx b _)
  | cons a as ih =>
    cases bs with
    | nil =>
      rw [List.flatMap_cons, List.append_assoc] at heq
      exact absurd heq (hy a _)
    | cons b bs =>
      rw [List.forall_mem_cons] at has hbs
      rw [List.flatMap_cons, List.flatMap_cons, List.append_assoc, List.append_assoc] at heq
      obtain ⟨rfl, hrest⟩ := h has.1 hbs.1 heq
      obtain ⟨rfl, hxy⟩ := ih has.2 hbs.2 hrest
      exact ⟨rfl, hxy⟩

theorem Separable.prepend {α : Type} {p : α → Prop} {fragment : α → Text} (h : Separable p fragment)
    (opening : Text) : Separable p fun a => opening ++ fragment a := by
  intro a b ha hb x y heq
  rw [List.append_assoc, List.append_assoc] at heq
  exact h ha hb (List.append_cancel_left heq)

namespace Escape

/-- The literals that end in `quotes` and have no other escape. -/
def literal (e : Escape) (quotes : Text) : LiteralRules where
  quotes
  unit c rest :=
    if e.replacement.isPrefixOf (c :: rest) then some ([e.mark], e.replacement.length - 1)
    else some ([c], 0)

/-- Quotes that begin with the mark of an escape and cannot be taken for its replacement. -/
structure Delimits (e : Escape) (quotes : Text) : Prop where
  marked : quotes.head? = some e.mark
  apart : Diverge quotes e.replacement

instance (e : Escape) (quotes : Text) : Decidable (e.Delimits quotes) :=
  decidable_of_iff (quotes.head? = some e.mark ∧ Diverge quotes e.replacement)
    ⟨fun h => ⟨h.1, h.2⟩, fun h => ⟨h.marked, h.apart⟩⟩

/-- A text in which nothing but the mark begins as the replacement does. -/
def Clear (e : Escape) (s : Text) : Prop := ∀ c ∈ s, e.replacement.head? = some c → c = e.mark

/-- An escaped text is read back in front of its quotes and anything behind them. -/
theorem read_apply {e : Escape} {quotes : Text} (hquotes : e.Delimits quotes) {s : Text}
    (hs : e.Clear s) (behind : Text) :
    (e.literal quotes).read (e.apply s ++ (quotes ++ behind)) = some (s, behind) := by
  obtain ⟨qs, hmarked⟩ := List.head?_eq_some_iff.mp hquotes.marked
  have happart (rest : Text) : ¬quotes <+: e.replacement ++ rest := by
    rintro ⟨more, h⟩
    exact hquotes.apart.append_ne more rest h
  cases hreplacement : e.replacement with
  | nil => exact absurd (hreplacement ▸ List.nil_prefix) hquotes.apart.2
  | cons r rs =>
    induction s with
    | nil => exact (e.literal quotes).read_quotes hmarked behind
    | cons c s ih =>
      obtain ⟨hc, hs⟩ := List.forall_mem_cons.mp hs
      by_cases hmark : c = e.mark
      · have hunit : (e.literal quotes).unit r (rs ++ (e.apply s ++ (quotes ++ behind))) =
            some ([e.mark], rs.length) := by
          rw [literal, hreplacement]
          exact if_pos (List.isPrefixOf_iff_prefix.mpr (List.prefix_append (r :: rs) _))
        have hbegins := happart (e.apply s ++ (quotes ++ behind))
        rw [hreplacement, List.cons_append] at hbegins
        rw [hmark, apply_cons_mark, hreplacement, List.append_assoc, List.cons_append]
        exact LiteralRules.read_unit hbegins hunit (ih hs)
      · have hunit : (e.literal quotes).unit c ([] ++ (e.apply s ++ (quotes ++ behind))) =
            some ([c], 0) := by
          have hnone : ¬e.replacement.isPrefixOf (c :: (e.apply s ++ (quotes ++ behind))) = true := by
            rw [List.isPrefixOf_iff_prefix, hreplacement, List.cons_prefix_cons]
            rintro ⟨rfl, -⟩
            exact hmark (hc (hreplacement ▸ rfl))
          exact if_neg hnone
        rw [apply_cons_of_ne hmark, List.cons_append]
        exact LiteralRules.read_unit (LiteralRules.not_quotes_of_ne hmarked hmark _) hunit (ih hs)

section Separable

variable {e : Escape} {quotes : Text}

/-- An escaped text can be told from what follows its quotes. -/
theorem separable_apply (hquotes : e.Delimits quotes) {closing : Text} (hclosing : quotes <+: closing) :
    Separable e.Clear fun s => e.apply s ++ closing := by
  obtain ⟨more, rfl⟩ := hclosing
  intro s t hs ht x y h
  simp only [List.append_assoc] at h
  have hread := read_apply hquotes hs (more ++ x)
  rw [h, read_apply hquotes ht (more ++ y)] at hread
  obtain ⟨hst, hxy⟩ := Prod.mk.inj (Option.some.inj hread)
  exact ⟨hst.symm, (List.append_cancel_left hxy).symm⟩

/-- Two escaped texts with quotes of their own can be told from what follows them. -/
theorem separable_pair (hquotes : e.Delimits quotes) (opening : Text) {middle closing : Text}
    (hmiddle : quotes <+: middle) (hclosing : quotes <+: closing) :
    Separable (fun h : Text × Text => e.Clear h.1 ∧ e.Clear h.2) fun h =>
      opening ++ (e.apply h.1 ++ (middle ++ (e.apply h.2 ++ closing))) := by
  intro h h' hclear hclear' x y heq
  simp only [List.append_assoc] at heq
  have hfirst := separable_apply hquotes hmiddle hclear.1 hclear'.1
    (x := e.apply h.2 ++ (closing ++ x)) (y := e.apply h'.2 ++ (closing ++ y))
  simp only [List.append_assoc] at hfirst
  obtain ⟨hkey, hrest⟩ := hfirst (List.append_cancel_left heq)
  rw [← List.append_assoc, ← List.append_assoc] at hrest
  obtain ⟨hvalue, hxy⟩ := separable_apply hquotes hclosing hclear.2 hclear'.2 hrest
  exact ⟨Prod.ext hkey hvalue, hxy⟩

end Separable

/-- The escape for texts that are read from their ends. -/
def mirrored (e : Escape) : Escape := ⟨e.mark, e.replacement.reverse⟩

theorem reverse_apply (e : Escape) (s : Text) : (e.apply s).reverse = e.mirrored.apply s.reverse := by
  induction s with
  | nil => rfl
  | cons c s ih =>
    rw [apply_cons, List.reverse_append, ih, List.reverse_cons, apply_append]
    congr 1
    by_cases hc : c = e.mark
    · rw [if_pos hc, hc]
      exact (List.append_nil _).symm.trans (apply_cons_mark e.mirrored []).symm
    · rw [if_neg hc]
      exact (apply_cons_of_ne (e := e.mirrored) hc []).symm

/-- An escaped text at the end can be told from what stands before its opening quotes. -/
theorem append_apply_cancel {e : Escape} {quotes : Text} (hquotes : e.mirrored.Delimits quotes.reverse)
    {s t : Text} (hs : e.mirrored.Clear s.reverse) (ht : e.mirrored.Clear t.reverse) {x y : Text}
    (h : x ++ (quotes ++ e.apply s) = y ++ (quotes ++ e.apply t)) : x = y ∧ s = t := by
  have hreversed := congrArg List.reverse h
  simp only [List.reverse_append, reverse_apply] at hreversed
  obtain ⟨hst, hxy⟩ := separable_apply hquotes (List.prefix_refl _) hs ht hreversed
  exact ⟨List.reverse_inj.mp hxy, List.reverse_inj.mp hst⟩

/-- From its end, a text needs no condition to be told from a backslash before a quote. -/
theorem clear_mirrored_backslash (quote : CodePoint) (s : Text) :
    (backslash quote).mirrored.Clear s := fun _ _ hhead => (Option.some.inj hhead).symm

/-- A text that is escaped with backslashes is determined by its escaped form, whether or not it has
backslashes of its own. -/
theorem apply_backslash_injective {s t : Text}
    (h : (backslash '"').apply s = (backslash '"').apply t) : s = t :=
  have hquotes : (backslash '"').mirrored.Delimits (List.reverse ("(\"" : Text)) := by decide
  (append_apply_cancel (x := []) (y := []) hquotes (clear_mirrored_backslash _ _)
    (clear_mirrored_backslash _ _) (by rw [h])).2

end Escape

end HttpWorkbench.Export
