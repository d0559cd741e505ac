import HttpWorkbench.Proofs.Text.LowerCase
import HttpWorkbench.Text.Search

/-!
# Lower case inside a text

The lower case of a part of a text is the part's own lower case, up to the form of its capital sigmas.
Whether one of them ends a word is decided by the nearest characters around it that are not passed
over. A part all of whose sigmas are decided within it has its own lower case wherever it stands; for
any other part there is a text that has it and whose lower case has not the part's.
-/

namespace HttpWorkbench.Text

/-- Whether there is a character that is not passed over. -/
def hasNearest (cs : Text) : Bool := cs.any fun c => !inRanges caseIgnorableRanges c

theorem nextIsCased_cons (c : CodePoint) (cs : Text) :
    nextIsCased (c :: cs) =
      if inRanges caseIgnorableRanges c then nextIsCased cs else inRanges casedRanges c := by
  rw [nextIsCased, List.dropWhile_cons]
  by_cases hc : inRanges caseIgnorableRanges c = true
  · rw [if_pos hc, if_pos hc]
    rfl
  · rw [if_neg hc, if_neg hc]

theorem nextIsCased_append (cs more : Text) :
    nextIsCased (cs ++ more) = if hasNearest cs then nextIsCased cs else nextIsCased more := by
  induction cs with
  | nil => rfl
  | cons c cs ih =>
    have hnearest : hasNearest (c :: cs) = (!inRanges caseIgnorableRanges c || hasNearest cs) := rfl
    rw [List.cons_append, nextIsCased_cons, nextIsCased_cons, ih, hnearest]
    cases inRanges caseIgnorableRanges c <;> rfl

theorem nextIsCased_of_not_hasNearest {cs : Text} (h : hasNearest cs = false) :
    nextIsCased cs = false := by
  have hnext := nextIsCased_append cs []
  rw [List.append_nil, h] at hnext
  exact hnext

/-- Whether the form of a sigma with `before` (nearest first) and `after` around it is decided by
these: a cased letter follows, or what comes before is there and has no case, or both neighbours are
there. -/
def isDecided (before after : Text) : Bool :=
  nextIsCased after || (hasNearest before && (!nextIsCased before || hasNearest after))

/-- A decided sigma has its form whatever stands further away. -/
theorem endsWord_append {before after : Text} (h : isDecided before after = true)
    (farBefore farAfter : Text) :
    endsWord (before ++ farBefore) (after ++ farAfter) = endsWord before after := by
  have hthere : nextIsCased after = true → hasNearest after = true := fun hcased => by
    by_contra hnone
    rw [nextIsCased_of_not_hasNearest (Bool.eq_false_iff.mpr hnone)] at hcased
    cases hcased
  rw [isDecided] at h
  rw [endsWord, endsWord, nextIsCased_append, nextIsCased_append]
  cases hcased : nextIsCased after with
  | true => simp [hthere hcased]
  | false =>
    rw [hcased, Bool.false_or, Bool.and_eq_true, Bool.or_eq_true, Bool.not_eq_true'] at h
    obtain ⟨hbefore, huncased | hafter⟩ := h
    · simp [hbefore, huncased]
    · simp [hbefore, hafter]

/-- A letter whose lower case is another than a given one. -/
theorem exists_cased_lower_ne (given : Option CodePoint) :
    ∃ c d : CodePoint, c ≠ 'Σ' ∧ nextIsCased [c] = true ∧ lowerLetter c = [d] ∧ given ≠ some d := by
  by_cases h : given = some 'a'
  · exact ⟨'B', 'b', by decide, by decide +kernel, by decide, by rw [h]; decide⟩
  · exact ⟨'A', 'a', by decide, by decide +kernel, by decide, h⟩

/-! ## The lower case of a part -/

/-- Lower case of a part of a text, with `before` (nearest first) and `after` around it. -/
def lowerBetween (before after : Text) : Text → Text
  | [] => []
  | c :: rest =>
    (if c = 'Σ' then [.char (if endsWord before (rest ++ after) then 'ς' else 'σ')]
      else lowerLetter c) ++ lowerBetween (c :: before) after rest

theorem lowerFrom_append (before part after : Text) :
    lowerFrom before (part ++ after) =
      lowerBetween before after part ++ lowerFrom (part.reverse ++ before) after := by
  induction part generalizing before with
  | nil => rfl
  | cons c part ih =>
    rw [List.cons_append, lowerFrom, ih, lowerBetween, List.append_assoc, List.reverse_cons,
      List.append_assoc, List.singleton_append]

theorem lower_eq_lowerBetween (part : Text) : lower part = lowerBetween [] [] part := by
  have h := lowerFrom_append [] part []
  rwa [List.append_nil, lowerFrom, List.append_nil] at h

theorem lowerBetween_append (before after front rest : Text) :
    lowerBetween before after (front ++ rest) =
      lowerBetween before (rest ++ after) front ++ lowerBetween (front.reverse ++ before) after rest := by
  induction front generalizing before with
  | nil => rfl
  | cons c front ih =>
    rw [List.cons_append, lowerBetween, ih, lowerBetween, List.append_assoc, List.append_assoc,
      List.reverse_cons, List.append_assoc, List.singleton_append]

/-- What stands around a part changes nothing of the length of its lower case. -/
theorem length_lowerBetween (before after part : Text) :
    (lowerBetween before after part).length = (lower part).length := by
  rw [lower_eq_lowerBetween]
  suffices h : ∀ before' after', (lowerBetween before after part).length =
      (lowerBetween before' after' part).length from h [] []
  induction part generalizing before with
  | nil => exact fun _ _ => rfl
  | cons c part ih =>
    intro before' after'
    rw [lowerBetween, lowerBetween, List.length_append, List.length_append, ih _ (c :: before') after']
    split <;> rfl

/-- Whether all sigmas of a part behind `before` (nearest first) are decided by it. -/
def sigmasDecided (before : Text) : Text → Bool
  | [] => true
  | c :: rest => (c != 'Σ' || isDecided before rest) && sigmasDecided (c :: before) rest

/-- A part without capital sigmas has none that is not decided. -/
theorem sigmasDecided_of_notMem {part : Text} (h : .char 'Σ' ∉ part) (before : Text) :
    sigmasDecided before part = true := by
  induction part generalizing before with
  | nil => rfl
  | cons c part ih =>
    rw [List.mem_cons, not_or] at h
    rw [sigmasDecided, ih h.2, Bool.and_true, Bool.or_eq_true, bne_iff_ne]
    exact .inl (Ne.symm h.1)

theorem exists_undecided {before part : Text} (h : sigmasDecided before part = false) :
    ∃ front rest, part = front ++ .char 'Σ' :: rest ∧
      isDecided (front.reverse ++ before) rest = false := by
  induction part generalizing before with
  | nil => cases h
  | cons c part ih =>
    rw [sigmasDecided, Bool.and_eq_false_iff, Bool.or_eq_false_iff, bne_eq_false_iff_eq] at h
    rcases h with ⟨rfl, hundecided⟩ | h
    · exact ⟨[], part, rfl, hundecided⟩
    · obtain ⟨front, rest, rfl, hundecided⟩ := ih h
      refine ⟨c :: front, rest, rfl, ?_⟩
      rwa [List.reverse_cons, List.append_assoc, List.singleton_append]

/-- A part whose sigmas are decided has the same lower case whatever stands further away. -/
theorem lowerBetween_eq_of_decided {before part : Text} (h : sigmasDecided before part = true)
    (farBefore after : Text) :
    lowerBetween (before ++ farBefore) after part = lowerBetween before [] part := by
  induction part generalizing before with
  | nil => rfl
  | cons c part ih =>
    rw [sigmasDecided, Bool.and_eq_true, Bool.or_eq_true, bne_iff_ne] at h
    have hrest : lowerBetween (c :: (before ++ farBefore)) after part =
        lowerBetween (c :: before) [] part := ih h.2
    rw [lowerBetween, lowerBetween, hrest]
    by_cases hsigma : c = 'Σ'
    · have hdecided := h.1.resolve_left (absurd hsigma)
      rw [if_pos hsigma, if_pos hsigma, List.append_nil, endsWord_append hdecided]
    · rw [if_neg hsigma, if_neg hsigma]

/-- Another form of one sigma makes another lower case. -/
theorem lowerBetween_ne {front rest farBefore after : Text}
    (h : endsWord (front.reverse ++ farBefore) (rest ++ after) ≠ endsWord front.reverse rest) :
    lowerBetween farBefore after (front ++ .char 'Σ' :: rest) ≠ lower (front ++ .char 'Σ' :: rest) := by
  rw [lower_eq_lowerBetween, lowerBetween_append, lowerBetween_append]
  intro hsame
  have hlength : (lowerBetween farBefore (.char 'Σ' :: rest ++ after) front).length =
      (lowerBetween [] (.char 'Σ' :: rest ++ []) front).length := by
    rw [length_lowerBetween, length_lowerBetween]
  have hsigma := (List.append_inj hsame hlength).2
  rw [lowerBetween, lowerBetween, if_pos rfl, if_pos rfl, List.singleton_append,
    List.singleton_append, List.cons.injEq, List.append_nil, List.append_nil] at hsigma
  revert h hsigma
  cases endsWord (front.reverse ++ farBefore) (rest ++ after) <;>
    cases endsWord front.reverse rest <;> simp

/-! ## Occurrences -/

/-- The lower case of a text has the lower case of each of its parts whose sigmas are decided. -/
theorem lower_isInfix {part text : Text} (h : part <:+: text)
    (hdecided : sigmasDecided [] part = true) : lower part <:+: lower text := by
  obtain ⟨before, after, rfl⟩ := h
  have hpart := lowerBetween_eq_of_decided hdecided before.reverse after
  rw [List.nil_append, ← lower_eq_lowerBetween] at hpart
  refine ⟨lowerBetween [] (part ++ after) before,
    lowerFrom (part.reverse ++ before.reverse) after, ?_⟩
  calc lowerBetween [] (part ++ after) before ++ lower part ++
        lowerFrom (part.reverse ++ before.reverse) after
      = lowerBetween [] (part ++ after) before ++ lowerFrom before.reverse (part ++ after) := by
        rw [lowerFrom_append before.reverse, hpart, List.append_assoc]
    _ = lower (before ++ part ++ after) := by
        rw [List.append_assoc, lower, lowerFrom_append [] before, List.append_nil]

/-- Of two texts of one length, the first stands in the second with a character in front only if they
are the same or the first begins with that character. -/
theorem eq_or_head_of_infix_cons {s t : Text} {c : CodePoint} (hlength : s.length = t.length)
    (hs : s ≠ []) (h : s <:+: c :: t) : s = t ∨ s.head? = some c := by
  rcases List.infix_cons_iff.mp h with hfront | hwithin
  · cases s with
    | nil => exact absurd rfl hs
    | cons d s =>
      rw [List.cons_prefix_cons] at hfront
      exact .inr (congrArg some hfront.1)
  · exact .inl (hwithin.eq_of_length hlength)

section Undecided

variable {part : Text} {c d : CodePoint} (hsigma : c ≠ 'Σ') (hlower : lowerLetter c = [d])
include hsigma hlower

/-- A letter in front of a part makes its lower case another one, which has not that of the part. -/
theorem not_infix_lower_cons (hdiffers : lowerBetween [c] [] part ≠ lower part)
    (hne : lower part ≠ []) (hhead : (lower part).head? ≠ some d) :
    ¬lower part <:+: lower (c :: part) := by
  have htext : lower (c :: part) = d :: lowerBetween [c] [] part := by
    have hbetween := lowerFrom_append [c] part []
    rw [List.append_nil, lowerFrom, List.append_nil] at hbetween
    rw [lower, lowerFrom, if_neg hsigma, hlower, hbetween, List.singleton_append]
  rw [htext]
  intro hwithin
  rcases eq_or_head_of_infix_cons (length_lowerBetween ..).symm hne hwithin with hsame | hsame
  · exact hdiffers hsame.symm
  · exact hhead hsame

/-- So does a letter behind it. -/
theorem not_infix_lower_concat (hdiffers : lowerBetween [] [c] part ≠ lower part)
    (hne : lower part ≠ []) (hlast : (lower part).reverse.head? ≠ some d) :
    ¬lower part <:+: lower (part ++ [c]) := by
  have htext : lower (part ++ [c]) = lowerBetween [] [c] part ++ [d] := by
    rw [lower, lowerFrom_append, lowerFrom, if_neg hsigma, hlower, lowerFrom, List.append_nil]
  rw [htext, ← List.reverse_infix, List.reverse_append]
  intro hwithin
  have hlength : (lower part).reverse.length = (lowerBetween [] [c] part).reverse.length := by
    rw [List.length_reverse, List.length_reverse, length_lowerBetween]
  rcases eq_or_head_of_infix_cons hlength (by simpa using hne) hwithin with hsame | hsame
  · exact hdiffers (List.reverse_inj.mp hsame).symm
  · exact hlast hsame

end Undecided

/-- A part with a sigma that is not decided stands in a text whose lower case has not the lower case
of the part: with a letter beside it that gives the sigma its other form. -/
theorem exists_lower_not_isInfix {part : Text} (h : sigmasDecided [] part = false) :
    ∃ text, part <:+: text ∧ ¬lower part <:+: lower text := by
  obtain ⟨front, rest, hpart, hundecided⟩ := exists_undecided h
  rw [List.append_nil, isDecided, Bool.or_eq_false_iff, Bool.and_eq_false_iff,
    Bool.or_eq_false_iff, Bool.not_eq_false'] at hundecided
  have hne : lower part ≠ [] := by
    rw [hpart, lower_eq_lowerBetween, lowerBetween_append, lowerBetween, if_pos rfl]
    simp
  obtain ⟨hrest, hfront | ⟨hfront, hnone⟩⟩ := hundecided
  · obtain ⟨c, d, hsigma, hcased, hlower, hhead⟩ := exists_cased_lower_ne (lower part).head?
    refine ⟨c :: part, (List.suffix_cons c part).isInfix,
      not_infix_lower_cons hsigma hlower ?_ hne hhead⟩
    -- The letter in front ends the word before the sigma, which had no word before.
    rw [hpart]
    apply lowerBetween_ne
    rw [endsWord, endsWord, nextIsCased_append, hfront, nextIsCased_of_not_hasNearest hfront,
      List.append_nil, hrest, if_neg Bool.false_ne_true, hcased]
    decide
  · obtain ⟨c, d, hsigma, hcased, hlower, hlast⟩ := exists_cased_lower_ne (lower part).reverse.head?
    refine ⟨part ++ [c], (List.prefix_append part [c]).isInfix,
      not_infix_lower_concat hsigma hlower ?_ hne hlast⟩
    -- The letter behind goes on with the word that the sigma ended.
    rw [hpart]
    apply lowerBetween_ne
    rw [endsWord, endsWord, nextIsCased_append rest, hnone, hrest, if_neg Bool.false_ne_true, hcased,
      List.append_nil, hfront]
    decide

/-- The sigmas of a part are decided exactly if the lower case of every text that has the part has
the part's lower case. -/
theorem sigmasDecided_iff (part : Text) :
    sigmasDecided [] part = true ↔ ∀ text, part <:+: text → lower part <:+: lower text := by
  constructor
  · exact fun hdecided text h => lower_isInfix h hdecided
  · intro hall
    by_contra hundecided
    obtain ⟨text, hpart, hnot⟩ := exists_lower_not_isInfix (Bool.eq_false_iff.mpr hundecided)
    exact hnot (hall text hpart)

end HttpWorkbench.Text
