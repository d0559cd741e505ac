import HttpWorkbench.Text.Case
import Mathlib.Tactic.Common

/-!
# Lower case is final

The lower case of a letter has no other lower case, and a sigma that was made small stays as it is.
So a text in lower case is left as it is by lower case.
-/

namespace HttpWorkbench

/-- A number that is not too large is that of its code point. -/
theorem CodePoint.value_ofValue {n : Nat} (h : n < 0x110000) : (ofValue n).value = n := by
  rw [ofValue]
  split
  · simp only [value]
    omega
  · have hvalid : n.isValidChar := by
      rw [Nat.isValidChar]
      omega
    rw [value, Char.ofNat, dif_pos hvalid]
    rfl

namespace Text

namespace CaseRun

/-- The least number that the run moves a letter to. -/
def low (r : CaseRun) : Nat := (r.first + r.shift).toNat

/-- The greatest number that the run moves a letter to. -/
def high (r : CaseRun) : Nat := (r.last + r.shift).toNat

/-- Whether the second run has no letter where the first moves its letters: it lies elsewhere, or
both go in steps of two and miss each other. -/
def avoids (r s : CaseRun) : Bool :=
  Nat.blt r.high s.first || Nat.blt s.last r.low ||
    ((r.step == 2 || r.first == r.last) && s.step == 2 && (r.low + s.first) % 2 == 1)

/-- Whether the run moves its letters to code points. -/
def fits (r : CaseRun) : Bool := 0 ≤ r.first + r.shift && r.high < 0x110000

variable {r s : CaseRun} {n m : Nat}

/-- What a run moves a letter to keeps its place in the run. -/
theorem image?_eq_some (hfits : r.fits = true) (hm : r.image? n = some m) :
    m < 0x110000 ∧ r.low ≤ m ∧ m ≤ r.high ∧ r.first ≤ n ∧ n ≤ r.last ∧ (n - r.first) % r.step = 0 ∧
      m - r.low = n - r.first := by
  rw [fits, high, Bool.and_eq_true, decide_eq_true_eq, decide_eq_true_eq] at hfits
  rw [image?] at hm
  split at hm
  · rename_i hn
    obtain ⟨hfirst, hlast, hstep⟩ := hn
    have hvalue := Option.some.inj hm
    rw [low, high]
    omega
  · cases hm

/-- A letter that one run has moved is not moved by a run that the first avoids. -/
theorem image?_eq_none (hfits : r.fits = true) (havoids : r.avoids s = true)
    (hm : r.image? n = some m) : s.image? m = none := by
  obtain ⟨-, hlow, hhigh, hfirst, hlast, hstep, hplace⟩ := image?_eq_some hfits hm
  simp only [avoids, Bool.or_eq_true, Bool.and_eq_true, Nat.blt_eq, beq_iff_eq] at havoids
  refine if_neg ?_
  rintro ⟨hfirst', hlast', hstep'⟩
  rcases havoids with (h | h) | ⟨⟨hr, hs⟩, hodd⟩
  · omega
  · omega
  · rw [hs] at hstep'
    rcases hr with hr | hr
    · rw [hr] at hstep
      omega
    · omega

end CaseRun

theorem lowerRuns_fit : lowerRuns.all CaseRun.fits = true := by decide +kernel

theorem lowerRuns_avoid : (lowerRuns.all fun r => lowerRuns.all r.avoids) = true := by
  decide +kernel

/-- No letter is moved to one whose lower case is listed apart. -/
theorem lowerRuns_avoid_expansions :
    (lowerRuns.all fun r => lowerExpansions.all fun e => r.avoids ⟨e.1, e.1, 1, 0⟩) = true := by
  decide +kernel

theorem lowerLetter_eq_self {c : CodePoint} (hexpansion : lowerExpansions.lookup c.value = none)
    (hrun : lowerRuns.findSome? (·.image? c.value) = none) : lowerLetter c = [c] := by
  rw [lowerLetter, mapCase, hexpansion, hrun]

/-- A letter in the lower case of another is listed for it, is where a run moves it to, or is the
letter itself, which is in lower case then. -/
theorem lowerLetter_cases {c d : CodePoint} (h : d ∈ lowerLetter c) :
    (∃ e ∈ lowerExpansions, ∃ n ∈ e.2, d = .ofValue n) ∨
    (∃ r ∈ lowerRuns, ∃ m, r.image? c.value = some m ∧ d = .ofValue m) ∨
    d = c ∧ lowerLetter c = [c] := by
  rw [lowerLetter, mapCase] at h
  cases hexpansion : lowerExpansions.lookup c.value with
  | some ns =>
    simp only [hexpansion, List.mem_map] at h
    obtain ⟨n, hn, rfl⟩ := h
    obtain ⟨before, after, hlist, -⟩ := List.lookup_eq_some_iff.mp hexpansion
    refine .inl ⟨(c.value, ns), ?_, n, hn, rfl⟩
    rw [hlist]
    exact List.mem_append_right before List.mem_cons_self
  | none =>
    cases hrun : lowerRuns.findSome? (·.image? c.value) with
    | none =>
      simp only [hexpansion, hrun, List.mem_singleton] at h
      exact .inr (.inr ⟨h, lowerLetter_eq_self hexpansion hrun⟩)
    | some m =>
      simp only [hexpansion, hrun, List.mem_singleton] at h
      obtain ⟨r, hr, hm⟩ := List.exists_of_findSome?_eq_some hrun
      exact .inr (.inl ⟨r, hr, m, hm, h⟩)

/-- What a run moves a letter to is in lower case. -/
theorem lowerLetter_of_image? {r : CaseRun} (hr : r ∈ lowerRuns) {n m : Nat}
    (hm : r.image? n = some m) : lowerLetter (.ofValue m) = [.ofValue m] := by
  have hfits := List.all_eq_true.mp lowerRuns_fit r hr
  have hvalue : (CodePoint.ofValue m).value = m :=
    CodePoint.value_ofValue (CaseRun.image?_eq_some hfits hm).1
  refine lowerLetter_eq_self ?_ ?_
  · rw [hvalue, List.lookup_eq_none_iff]
    intro e he
    have havoids := List.all_eq_true.mp (List.all_eq_true.mp lowerRuns_avoid_expansions r hr) e he
    have himage := CaseRun.image?_eq_none hfits havoids hm
    have hne : m ≠ e.1 := by
      rintro rfl
      simp [CaseRun.image?] at himage
    simpa using hne
  · rw [hvalue, List.findSome?_eq_none_iff]
    intro s hs
    have havoids := List.all_eq_true.mp (List.all_eq_true.mp lowerRuns_avoid r hr) s hs
    exact CaseRun.image?_eq_none hfits havoids hm

/-- The lower case of a letter is made of letters in lower case. -/
theorem lowerLetter_of_mem {c d : CodePoint} (h : d ∈ lowerLetter c) : lowerLetter d = [d] := by
  have hlisted : ∀ e ∈ lowerExpansions, ∀ n ∈ e.2, lowerLetter (.ofValue n) = [.ofValue n] := by
    decide
  rcases lowerLetter_cases h with ⟨e, he, n, hn, rfl⟩ | ⟨r, hr, m, hm, rfl⟩ | ⟨rfl, hself⟩
  · exact hlisted e he n hn
  · exact lowerLetter_of_image? hr hm
  · exact hself

/-- A text of letters in lower case is left as it is, whatever stands before it. -/
theorem lowerFrom_eq_self {s : Text} (h : ∀ c ∈ s, lowerLetter c = [c]) (before : Text) :
    lowerFrom before s = s := by
  induction s generalizing before with
  | nil => rfl
  | cons c s ih =>
    rw [List.forall_mem_cons] at h
    have hsigma : c ≠ 'Σ' := by
      rintro rfl
      exact absurd h.1 (by decide)
    rw [lowerFrom, if_neg hsigma, h.1, ih h.2, List.singleton_append]

theorem lowerLetter_of_mem_lowerFrom {before s : Text} {d : CodePoint} (h : d ∈ lowerFrom before s) :
    lowerLetter d = [d] := by
  induction s generalizing before with
  | nil => cases h
  | cons c s ih =>
    rw [lowerFrom, List.mem_append] at h
    rcases h with h | h
    · split at h
      · rw [List.mem_singleton.mp h]
        split <;> decide
      · exact lowerLetter_of_mem h
    · exact ih h

/-- The lower case of a text is its own lower case. -/
theorem lower_lower (s : Text) : lower (lower s) = lower s :=
  lowerFrom_eq_self (fun _ => lowerLetter_of_mem_lowerFrom) []

end Text

end HttpWorkbench
