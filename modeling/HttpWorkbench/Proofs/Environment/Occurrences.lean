import HttpWorkbench.Environment.Placeholder
import Mathlib.Data.List.TakeWhile

/-!
# Where placeholders stand in a text

A placeholder is told here by its form alone: doubled braces, blanks, a name, blanks, doubled braces.
The scan that finds one at the head of a text finds exactly these, and since no brace stands between
the two pairs, two placeholders of a text never overlap.
-/

namespace HttpWorkbench.Placeholder

/-- A name of a variable: a letter or an underscore, then characters of names. -/
def IsName (name : Text) : Prop :=
  ∃ c rest, name = c :: rest ∧ isNameStart c = true ∧ ∀ d ∈ rest, isNameChar d = true

/-- The text of an occurrence is its name between doubled braces, with blanks around it. -/
def Occurrence.IsPlaceholder (o : Occurrence) : Prop :=
  IsName o.name ∧ ∃ left right : Text, (∀ c ∈ left, Text.isBlank c = true) ∧
    (∀ c ∈ right, Text.isBlank c = true) ∧
    o.whole = .char '\x7b' :: .char '\x7b' ::
      (left ++ o.name ++ right ++ [.char '\x7d', .char '\x7d'])

/-- A placeholder stands in the text from a position on. -/
def StandsAt (text : Text) (start : Nat) (o : Occurrence) : Prop :=
  o.IsPlaceholder ∧ o.whole <+: text.drop start

theorem isNameChar_of_isNameStart {c : CodePoint} (h : isNameStart c = true) :
    isNameChar c = true := by
  cases c with
  | half _ => cases h
  | char c =>
    simp only [isNameStart, isNameChar, CodePoint.passes, Bool.or_eq_true] at h ⊢
    rcases h with h | h
    · simp [Char.isAlphanum, h]
    · simp [h]

/-- The characters of names are ASCII characters behind the space. -/
theorem toNat_of_isNameChar {c : Char} (h : isNameChar (.char c) = true) :
    0x20 < c.toNat ∧ c.toNat < 0x80 := by
  have hranges : isNameChar (.char c) = (((decide (c.val ≥ 65 ∧ c.val ≤ 90) ||
      (c.val ≥ 97 && c.val ≤ 122)) || (c.val ≥ 48 && c.val ≤ 57)) ||
        c == '_' || c == '.' || c == '-') := rfl
  simp only [hranges, Bool.or_eq_true, Bool.and_eq_true, decide_eq_true_eq, beq_iff_eq, ge_iff_le,
    UInt32.le_iff_toNat_le] at h
  change 0x20 < c.val.toNat ∧ c.val.toNat < 0x80
  rcases h with ((((h | h) | h) | rfl) | rfl) | rfl
  · exact ⟨Nat.lt_of_lt_of_le (by decide) h.1, Nat.lt_of_le_of_lt h.2 (by decide)⟩
  · exact ⟨Nat.lt_of_lt_of_le (by decide) h.1, Nat.lt_of_le_of_lt h.2 (by decide)⟩
  · exact ⟨Nat.lt_of_lt_of_le (by decide) h.1, Nat.lt_of_le_of_lt h.2 (by decide)⟩
  all_goals decide

theorem isBlank_of_isNameChar {c : CodePoint} (h : isNameChar c = true) :
    Text.isBlank c = false := by
  cases c with
  | half _ => cases h
  | char c =>
    have hrange := toNat_of_isNameChar h
    have hvalue : (CodePoint.char c).value = c.toNat := rfl
    rw [Bool.eq_false_iff]
    intro hblank
    simp only [Text.isBlank, Bool.or_eq_true, Bool.and_eq_true, decide_eq_true_eq,
      beq_iff_eq] at hblank
    omega

theorem isNameChar_of_isBlank {c : CodePoint} (h : Text.isBlank c = true) :
    isNameChar c = false := by
  rw [Bool.eq_false_iff]
  intro hname
  exact Bool.false_ne_true ((isBlank_of_isNameChar hname).symm.trans h)

/-- All characters of a name may stand behind its first one. -/
theorem IsName.isNameChar {name : Text} (h : IsName name) : ∀ c ∈ name, isNameChar c = true := by
  obtain ⟨c, rest, rfl, hc, hrest⟩ := h
  exact List.forall_mem_cons.mpr ⟨isNameChar_of_isNameStart hc, hrest⟩

/-- The run of characters that pass a test ends before the first one that fails it. -/
theorem takeWhile_append_of_head {p : CodePoint → Bool} {cs rest : Text}
    (hcs : ∀ c ∈ cs, p c = true) (hrest : ∀ d ∈ rest.head?, p d = false) :
    (cs ++ rest).takeWhile p = cs ∧ (cs ++ rest).dropWhile p = rest := by
  rw [List.takeWhile_append_of_pos hcs, List.dropWhile_append_of_pos hcs]
  cases rest with
  | nil => simp
  | cons d rest =>
    have hd : p d = false := hrest d rfl
    simp [hd]

/-- What follows a name inside braces does not begin with a character of names. -/
theorem isNameChar_head_of_blanks {right : Text} (hright : ∀ c ∈ right, Text.isBlank c = true)
    (after : Text) :
    ∀ d ∈ (right ++ .char '\x7d' :: after).head?, isNameChar d = false := by
  intro d hd
  cases right with
  | nil =>
    obtain rfl : .char '\x7d' = d := Option.some.inj hd
    rfl
  | cons c right =>
    obtain rfl : c = d := Option.some.inj hd
    exact isNameChar_of_isBlank (hright c List.mem_cons_self)

/-- The scan finds a placeholder that a text begins with. -/
theorem occurrence?_append {o : Occurrence} (ho : o.IsPlaceholder) (after : Text) :
    occurrence? (o.whole ++ after) = some o := by
  obtain ⟨name, whole⟩ := o
  obtain ⟨hname, left, right, hleft, hright, hwhole⟩ := ho
  simp only at hname hwhole
  subst hwhole
  have hchars := hname.isNameChar
  obtain ⟨c, rest, rfl, hc, -⟩ := hname
  -- each of the three runs stops where the next part of the placeholder begins
  have hblank := isBlank_of_isNameChar (isNameChar_of_isNameStart hc)
  have houter := takeWhile_append_of_head hleft
    (show ∀ d ∈ (c :: rest ++ (right ++ .char '\x7d' :: .char '\x7d' :: after)).head?,
      Text.isBlank d = false from fun d hd => Option.some.inj hd ▸ hblank)
  have hmiddle := takeWhile_append_of_head hchars
    (isNameChar_head_of_blanks hright (.char '\x7d' :: after))
  have hinner := takeWhile_append_of_head hright
    (show ∀ d ∈ (CodePoint.char '\x7d' :: .char '\x7d' :: after).head?,
      Text.isBlank d = false from fun d hd => Option.some.inj hd ▸ rfl)
  simp only [List.cons_append, List.append_assoc, List.nil_append] at houter hmiddle ⊢
  simp only [occurrence?, houter.1, houter.2, hc, hmiddle.1, hmiddle.2, hinner.1, hinner.2, if_true,
    List.cons_append, List.append_assoc]

/-- What the scan finds is a placeholder, and the text begins with it. -/
theorem isPlaceholder_of_occurrence? {text : Text} {o : Occurrence} (h : occurrence? text = some o) :
    o.IsPlaceholder ∧ o.whole <+: text := by
  unfold occurrence? at h
  split at h
  case h_2 => cases h
  case h_1 inner =>
    simp only at h
    split at h
    case h_1 => cases h
    case h_2 c rest hfrom =>
      split at h
      case isFalse => cases h
      case isTrue hc =>
        split at h
        case h_2 => cases h
        case h_1 after hbehind =>
          obtain rfl := Option.some.inj h
          rw [hfrom] at hbehind ⊢
          have hleft := List.takeWhile_append_dropWhile (p := Text.isBlank) (l := inner)
          have hname := List.takeWhile_append_dropWhile (p := isNameChar) (l := c :: rest)
          have hright := List.takeWhile_append_dropWhile (p := Text.isBlank)
            (l := (c :: rest).dropWhile isNameChar)
          rw [hfrom] at hleft
          rw [hbehind] at hright
          refine ⟨⟨⟨c, rest.takeWhile isNameChar, ?_, hc, fun d hd => List.mem_takeWhile_imp hd⟩,
            inner.takeWhile Text.isBlank,
            ((c :: rest).dropWhile isNameChar).takeWhile Text.isBlank,
            fun d hd => List.mem_takeWhile_imp hd, fun d hd => List.mem_takeWhile_imp hd, ?_⟩,
            after, ?_⟩
          · rw [List.takeWhile_cons, if_pos (isNameChar_of_isNameStart hc)]
          · simp only [List.cons_append, List.append_assoc]
          · simp only [List.cons_append, List.append_assoc, List.nil_append, hright, hname, hleft]

/-- The placeholder at the head of a text is the one that the text begins with. -/
theorem occurrence?_eq_some_iff {text : Text} {o : Occurrence} :
    occurrence? text = some o ↔ o.IsPlaceholder ∧ o.whole <+: text := by
  constructor
  · exact isPlaceholder_of_occurrence?
  · rintro ⟨ho, after, rfl⟩
    exact occurrence?_append ho after

/-- Behind its first two braces, a placeholder has no further opening brace. -/
theorem Occurrence.IsPlaceholder.exists_body {o : Occurrence} (ho : o.IsPlaceholder) :
    ∃ body : Text, o.whole = .char '\x7b' :: .char '\x7b' :: body ∧ body ≠ [] ∧
      .char '\x7b' ∉ body := by
  obtain ⟨hname, left, right, hleft, hright, hwhole⟩ := ho
  refine ⟨_, hwhole, by simp, ?_⟩
  have hbrace : Text.isBlank (.char '\x7b') = false := rfl
  intro hmem
  simp only [List.mem_append, List.mem_cons, List.not_mem_nil, or_false] at hmem
  rcases hmem with ((hmem | hmem) | hmem) | hmem
  · exact Bool.false_ne_true (hbrace.symm.trans (hleft _ hmem))
  · exact Bool.false_ne_true (hname.isNameChar _ hmem)
  · exact Bool.false_ne_true (hbrace.symm.trans (hright _ hmem))
  · revert hmem
    decide

/-- No placeholder begins inside another one. -/
theorem not_standsAt_inside {o p : Occurrence} (ho : o.IsPlaceholder) (after : Text) {k : Nat}
    (hpos : 0 < k) (hk : k < o.whole.length) : ¬StandsAt (o.whole ++ after) k p := by
  rintro ⟨hp, hbegins⟩
  obtain ⟨body, hwhole, hne, hbody⟩ := ho.exists_body
  obtain ⟨inner, hinner, -, -⟩ := hp.exists_body
  rw [hwhole] at hk hbegins
  rw [hinner] at hbegins
  obtain ⟨rest, hrest⟩ := hbegins
  match k with
  | 1 =>
    -- the second brace of the inner placeholder would be the first character of the body
    cases body with
    | nil => exact hne rfl
    | cons c body =>
      simp only [List.cons_append, List.drop_succ_cons, List.drop_zero, List.cons.injEq] at hrest
      exact hbody (hrest.2.1 ▸ List.mem_cons_self)
  | k + 2 =>
    have hlt : k < body.length := by simpa using hk
    have hmem : body[k] ∈ body := List.getElem_mem hlt
    simp only [List.cons_append, List.drop_succ_cons] at hrest
    rw [List.drop_append_of_le_length (Nat.le_of_lt hlt), List.drop_eq_getElem_cons hlt,
      List.cons_append, List.cons.injEq] at hrest
    exact hbody (hrest.1 ▸ hmem)

namespace StandsAt

variable {text : Text} {i j : Nat} {o p : Occurrence}

/-- At most one placeholder begins at a position. -/
theorem unique (ho : StandsAt text i o) (hp : StandsAt text i p) : o = p := by
  have hscan : occurrence? (text.drop i) = some o := occurrence?_eq_some_iff.mpr ho
  rw [occurrence?_eq_some_iff.mpr hp] at hscan
  exact (Option.some.inj hscan).symm

/-- A placeholder ends before a later one begins. -/
theorem le_of_lt (ho : StandsAt text i o) (hp : StandsAt text j p) (hij : i < j) :
    i + o.whole.length ≤ j := by
  by_contra hlt
  obtain ⟨after, hafter⟩ := ho.2
  refine not_standsAt_inside ho.1 after (k := j - i) (p := p) (by omega) (by omega) ⟨hp.1, ?_⟩
  rw [hafter, List.drop_drop, show i + (j - i) = j by omega]
  exact hp.2

/-- Two placeholders of a text do not overlap. -/
theorem disjoint (ho : StandsAt text i o) (hp : StandsAt text j p) (hne : (i, o) ≠ (j, p)) :
    i + o.whole.length ≤ j ∨ j + p.whole.length ≤ i := by
  rcases Nat.lt_trichotomy i j with hij | rfl | hij
  · exact Or.inl (le_of_lt ho hp hij)
  · exact absurd (congrArg (Prod.mk i) (unique ho hp)) hne
  · exact Or.inr (le_of_lt hp ho hij)

end StandsAt

end HttpWorkbench.Placeholder
