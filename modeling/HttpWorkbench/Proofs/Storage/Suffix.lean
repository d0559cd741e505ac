import HttpWorkbench.Storage.Path
import Mathlib.Data.List.TakeWhile

/-!
# The ends of paths

The end of a text after its last slash is the end of the last part of the path it names. So a path
that is written with a dot and more at its end has this for a suffix, unless its last part is no more
than that.
-/

namespace HttpWorkbench

theorem Text.splitAll_of_notMem {mark : CodePoint} {s : Text} (h : mark ∉ s) :
    Text.splitAll mark s = [s] := by
  induction s with
  | nil => rfl
  | cons c s ih =>
    rw [List.mem_cons, not_or] at h
    rw [splitAll, if_neg (Ne.symm h.1), ih h.2]

/-- What stands after the last mark ends the last piece. -/
theorem Text.exists_splitAll_append {mark : CodePoint} (s : Text) {ending : Text}
    (h : mark ∉ ending) :
    ∃ pieces piece, Text.splitAll mark (s ++ ending) = pieces ++ [piece ++ ending] := by
  induction s with
  | nil => exact ⟨[], [], splitAll_of_notMem h⟩
  | cons c s ih =>
    obtain ⟨pieces, piece, hpieces⟩ := ih
    rw [List.cons_append, splitAll, hpieces]
    split_ifs with hc
    · exact ⟨[] :: pieces, piece, rfl⟩
    · cases pieces with
      | nil => exact ⟨[], c :: piece, rfl⟩
      | cons first pieces => exact ⟨(c :: first) :: pieces, piece, rfl⟩

namespace Path

variable {s ending : Text}

/-- The last part of a path ends as the text that names it. -/
theorem exists_getLast?_parts (hend : .char '.' :: ending <:+ s) (hslash : .char '/' ∉ ending)
    (hnonempty : ending ≠ []) :
    ∃ stem, (ofText s).parts.getLast? = some (stem ++ .char '.' :: ending) := by
  obtain ⟨front, rfl⟩ := hend
  have hmark : .char '/' ∉ (.char '.' :: ending : Text) := by
    rw [List.mem_cons, not_or]
    exact ⟨by decide, hslash⟩
  obtain ⟨pieces, stem, hpieces⟩ := Text.exists_splitAll_append front hmark
  have hkept : (stem ++ .char '.' :: ending != "" && stem ++ .char '.' :: ending != ".") = true := by
    have hdot : stem ++ .char '.' :: ending ≠ [.char '.'] := by
      intro h
      have hlength := congrArg List.length h
      rw [List.length_append, List.length_cons, List.length_singleton] at hlength
      exact hnonempty (List.eq_nil_of_length_eq_zero (by omega))
    have hempty : stem ++ .char '.' :: ending ≠ [] := by simp
    rw [Bool.and_eq_true]
    exact ⟨bne_iff_ne.mpr hempty, bne_iff_ne.mpr hdot⟩
  refine ⟨stem, ?_⟩
  rw [ofText, hpieces, List.filter_append, List.filter_cons_of_pos (by exact hkept), List.filter_nil,
    List.getLast?_concat]

/-- The suffix of a path whose last part has a dot inside it. -/
theorem suffix_of_getLast? {p : Path} {stem : Text}
    (h : p.parts.getLast? = some (stem ++ .char '.' :: ending)) (hdot : .char '.' ∉ ending)
    (hnonempty : ending ≠ []) (hstem : stem ≠ []) : p.suffix = .char '.' :: ending := by
  have hafter : ((stem ++ .char '.' :: ending).reverse.takeWhile (· ≠ .char '.')).reverse =
      ending := by
    have hkept : ∀ c ∈ ending.reverse, decide (c ≠ .char '.') = true := by
      intro c hc
      rw [decide_eq_true_eq]
      rintro rfl
      exact hdot (List.mem_reverse.mp hc)
    rw [List.reverse_append, List.reverse_cons, List.append_assoc, List.takeWhile_append_of_pos hkept,
      List.singleton_append, List.takeWhile_cons_of_neg (by simp), List.append_nil,
      List.reverse_reverse]
  have hlength : 0 < stem.length := List.length_pos_iff.mpr hstem
  rw [suffix, h]
  simp only [hafter]
  rw [if_neg]
  rw [List.length_append, List.length_cons, Bool.or_eq_true, List.isEmpty_iff, decide_eq_true_eq]
  rintro (hempty | hshort)
  · exact hnonempty hempty
  · omega

/-- A path that is written with a dot and more at its end has this for a suffix, unless its last part
is no more. -/
theorem suffix_ofText (hend : .char '.' :: ending <:+ s) (hslash : .char '/' ∉ ending)
    (hdot : .char '.' ∉ ending) (hnonempty : ending ≠ [])
    (hname : (ofText s).parts.getLast? ≠ some (.char '.' :: ending)) :
    (ofText s).suffix = .char '.' :: ending := by
  obtain ⟨stem, hlast⟩ := exists_getLast?_parts hend hslash hnonempty
  refine suffix_of_getLast? hlast hdot hnonempty ?_
  rintro rfl
  exact hname hlast

end Path

end HttpWorkbench
