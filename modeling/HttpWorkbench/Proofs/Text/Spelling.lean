import HttpWorkbench.Proofs.Text.Trimmed
import HttpWorkbench.Text.Case
import Mathlib.Data.List.Forall2

/-!
# Spellings of a name

A name of small ASCII letters can be spelled with any of its letters as capitals and with blanks
around it. Trimming and lower case bring every spelling back to the name.
-/

namespace HttpWorkbench.Text

/-- A letter, or its capital. -/
def InEitherCase (c letter : CodePoint) : Prop := c = letter ∨ c = letter.mapChar Char.toUpper

/-- A name with blanks around it and each of its letters in either case. -/
def IsSpelling (spelled name : Text) : Prop :=
  ∃ left letters right : Text, spelled = left ++ letters ++ right ∧ isAllBlank left = true ∧
    List.Forall₂ InEitherCase letters name ∧ isAllBlank right = true

/-- The small letters of ASCII. -/
def smallLetters : Text := "abcdefghijklmnopqrstuvwxyz"

/-- A letter in either case is neither a blank nor a capital sigma, and its lower case is the small
letter. -/
theorem lowerLetter_of_inEitherCase {c letter : CodePoint} (h : InEitherCase c letter)
    (hletter : letter ∈ smallLetters) :
    isBlank c = false ∧ c ≠ 'Σ' ∧ lowerLetter c = [letter] := by
  have hsmall : ∀ l ∈ smallLetters, isBlank l = false ∧ l ≠ 'Σ' ∧ lowerLetter l = [l] := by
    decide
  have hcapital : ∀ l ∈ smallLetters, isBlank (l.mapChar Char.toUpper) = false ∧
      l.mapChar Char.toUpper ≠ 'Σ' ∧ lowerLetter (l.mapChar Char.toUpper) = [l] := by
    decide
  rcases h with rfl | rfl
  · exact hsmall c hletter
  · exact hcapital letter hletter

theorem isBlank_of_spelled {letters name : Text} (h : List.Forall₂ InEitherCase letters name)
    (hname : ∀ c ∈ name, c ∈ smallLetters) : ∀ c ∈ letters, isBlank c = false := by
  induction h with
  | nil => nofun
  | cons hc _ ih =>
    rw [List.forall_mem_cons] at hname ⊢
    exact ⟨(lowerLetter_of_inEitherCase hc hname.1).1, ih hname.2⟩

/-- The lower case of letters does not depend on what stands before them. -/
theorem lowerFrom_of_spelled {letters name : Text} (h : List.Forall₂ InEitherCase letters name)
    (hname : ∀ c ∈ name, c ∈ smallLetters) (before : Text) : lowerFrom before letters = name := by
  induction h generalizing before with
  | nil => rfl
  | cons hc _ ih =>
    rw [List.forall_mem_cons] at hname
    obtain ⟨-, hsigma, hlower⟩ := lowerLetter_of_inEitherCase hc hname.1
    rw [lowerFrom, if_neg hsigma, hlower, ih hname.2, List.singleton_append]

/-- Every spelling of a name of small letters is brought back to the name. -/
theorem IsSpelling.lower_trim {spelled name : Text} (h : IsSpelling spelled name)
    (hname : ∀ c ∈ name, c ∈ smallLetters) : lower (trim spelled) = name := by
  obtain ⟨left, letters, right, rfl, hleft, hletters, hright⟩ := h
  have hinner : letters.IsTrimmed := isTrimmed_of_forall (isBlank_of_spelled hletters hname)
  rw [trim_append hleft hinner hright, lower, lowerFrom_of_spelled hletters hname]

/-- The numbers of the blanks. -/
def blankNumbers : List Nat :=
  [0x09, 0x0A, 0x0B, 0x0C, 0x0D, 0x1C, 0x1D, 0x1E, 0x1F, 0x20, 0x85, 0xA0, 0x1680, 0x2000, 0x2001,
    0x2002, 0x2003, 0x2004, 0x2005, 0x2006, 0x2007, 0x2008, 0x2009, 0x200A, 0x2028, 0x2029, 0x202F,
    0x205F, 0x3000]

theorem value_mem_of_isBlank {c : CodePoint} (h : isBlank c = true) : c.value ∈ blankNumbers := by
  simp only [isBlank, Bool.or_eq_true, Bool.and_eq_true, decide_eq_true_eq, beq_iff_eq] at h
  simp only [blankNumbers, List.mem_cons, List.not_mem_nil, or_false]
  omega

/-- A blank has no case. -/
theorem lowerLetter_of_isBlank {c : CodePoint} (h : isBlank c = true) : lowerLetter c = [c] := by
  have hkept : ∀ n ∈ blankNumbers, lowerLetter (.ofValue n) = [.ofValue n] := by decide
  rw [← CodePoint.ofValue_value c]
  exact hkept c.value (value_mem_of_isBlank h)

/-- The lower case of a text that begins with a blank begins with that blank. -/
theorem lower_cons_of_isBlank {c : CodePoint} (h : isBlank c = true) (rest : Text) :
    ∃ more, lower (c :: rest) = c :: more := by
  have hsigma : c ≠ 'Σ' := by
    rintro rfl
    exact absurd h (by decide)
  refine ⟨lowerFrom [c] rest, ?_⟩
  rw [lower, lowerFrom, if_neg hsigma, lowerLetter_of_isBlank h, List.singleton_append]

/-- A text of blanks is no spelling, in any case, of a name that begins with a letter. -/
theorem lower_ne_of_isAllBlank {s : Text} (hs : isAllBlank s = true) {c : CodePoint} {name : Text}
    (hc : isBlank c = false) : lower s ≠ c :: name := by
  cases s with
  | nil => nofun
  | cons b rest =>
    have hb : isBlank b = true := List.all_eq_true.mp hs b List.mem_cons_self
    obtain ⟨more, hmore⟩ := lower_cons_of_isBlank hb rest
    rw [hmore]
    intro h
    rw [(List.cons.inj h).1, hc] at hb
    cases hb

end HttpWorkbench.Text
