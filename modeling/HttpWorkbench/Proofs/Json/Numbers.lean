import HttpWorkbench.Json.Writer
import HttpWorkbench.Proofs.Json.Grammar
import HttpWorkbench.Proofs.Number.Shortest

/-!
# Numbers are read back

Every integer of at most 4300 digits and every number of the format that a document can mean is
written as a text that is read as the same number, in front of whatever does not go on with it.
-/

namespace HttpWorkbench

open Json

/-! ## Digits -/

namespace Json

theorem digitsValue_ofChars (cs : List Char) :
    digitsValue (.ofChars cs) = Nat.ofDigitChars 10 cs 0 := by
  rw [digitsValue, Text.ofChars, List.foldl_map, Nat.ofDigitChars_eq_foldl]
  congr 1
  funext n c
  rw [Nat.mul_comm]
  rfl

theorem foldl_digits (cs : Text) (n : Nat) :
    cs.foldl (fun n c => n * 10 + (c.value - 0x30)) n = n * 10 ^ cs.length + digitsValue cs := by
  rw [digitsValue]
  induction cs generalizing n with
  | nil => simp
  | cons c cs ih =>
    rw [List.foldl_cons, List.foldl_cons, ih, ih (0 * 10 + _), List.length_cons, Nat.pow_succ]
    ring

theorem digitsValue_append (a b : Text) :
    digitsValue (a ++ b) = digitsValue a * 10 ^ b.length + digitsValue b := by
  rw [digitsValue, List.foldl_append, foldl_digits]
  rfl

@[simp] theorem digitsValue_zeros (k : Nat) : digitsValue (List.replicate k (.char '0')) = 0 := by
  induction k with
  | zero => rfl
  | succ k ih =>
    rw [List.replicate_succ', digitsValue_append, ih]
    rfl

end Json

/-- No number but zero begins with the digit zero. -/
theorem head?_toDigits {n : Nat} (hn : n ≠ 0) : (Nat.toDigits 10 n).head? ≠ some '0' := by
  induction n using Nat.strong_induction_on with
  | h n ih =>
    rw [Nat.toDigits_eq_if (by decide)]
    split
    · rename_i hlt
      revert hn
      clear ih
      revert n
      decide
    · rw [List.head?_append_of_ne_nil _ Nat.toDigits_ne_nil]
      exact ih (n / 10) (by omega) (by omega)

section Written

variable (n : Nat)

theorem digitsValue_natText : digitsValue (natText n) = n := by
  rw [natText, digitsValue_ofChars, Nat.ofDigitChars_ten_toDigits]

theorem isDigit_of_mem_natText {n : Nat} {c : CodePoint} (h : c ∈ natText n) : isDigit c = true := by
  obtain ⟨d, hd, rfl⟩ := List.mem_map.mp h
  exact Nat.isDigit_of_mem_toDigits (by decide) (by decide) hd

theorem natText_ne_nil : natText n ≠ [] := by
  rw [natText, Text.ofChars, Ne, List.map_eq_nil_iff]
  exact Nat.toDigits_ne_nil

theorem isDigits_natText : IsDigits (natText n) :=
  ⟨natText_ne_nil n, fun _ => isDigit_of_mem_natText⟩

theorem head?_natText {n : Nat} (hn : n ≠ 0) : (natText n).head? ≠ some (.char '0') := by
  rw [natText, Text.ofChars, List.head?_map]
  intro h
  obtain ⟨c, hc, hzero⟩ := Option.map_eq_some_iff.mp h
  rw [CodePoint.char.inj hzero] at hc
  exact head?_toDigits hn hc

end Written

namespace Json

/-! ## The parts of a number -/

/-- The whole digits of a number: one zero, or digits that do not begin with zero. -/
def IsWhole (whole : Text) : Prop :=
  whole = [.char '0'] ∨ IsDigits whole ∧ whole.head? ≠ some (.char '0')

/-- What does not go on with a number. -/
def Ends (rest : Text) : Prop :=
  ∀ c ∈ rest.head?, isDigit c = false ∧ c ≠ '.' ∧ c ≠ 'e' ∧ c ≠ 'E'

theorem isWhole_natText (n : Nat) : IsWhole (natText n) := by
  rcases Nat.eq_zero_or_pos n with rfl | hn
  · exact .inl rfl
  · exact .inr ⟨isDigits_natText n, head?_natText hn.ne'⟩

theorem IsWhole.isDigits {whole : Text} (h : IsWhole whole) : IsDigits whole := by
  rcases h with rfl | h
  · exact ⟨List.cons_ne_nil _ _, by decide⟩
  · exact h.1

/-- The digits of a fraction after their point; nothing when there are none. -/
def fractionText (digits : Text) : Text := if digits = [] then [] else .char '.' :: digits

/-- The exponent, if there is one. -/
def exponentText? (exponent : Option Int) : Text := exponent.elim [] exponentText

section Parts

variable {ds rest : Text}

theorem takeWhile_digits (hds : ∀ c ∈ ds, isDigit c = true)
    (hrest : ∀ c ∈ rest.head?, isDigit c = false) : (ds ++ rest).takeWhile isDigit = ds := by
  rw [List.takeWhile_append_of_pos hds]
  cases rest with
  | nil => exact List.append_nil ds
  | cons c rest =>
    rw [List.takeWhile_cons_of_neg (by simp [hrest c rfl]), List.append_nil]

theorem dropWhile_digits (hds : ∀ c ∈ ds, isDigit c = true)
    (hrest : ∀ c ∈ rest.head?, isDigit c = false) : (ds ++ rest).dropWhile isDigit = rest := by
  rw [List.dropWhile_append_of_pos hds]
  cases rest with
  | nil => rfl
  | cons c rest => rw [List.dropWhile_cons_of_neg (by simp [hrest c rfl])]

theorem readWhole?_append {whole : Text} (hwhole : IsWhole whole)
    (hrest : ∀ c ∈ rest.head?, isDigit c = false) :
    readWhole? (whole ++ rest) = some (whole, rest) := by
  rcases hwhole with rfl | ⟨hdigits, hzero⟩
  · rfl
  · cases whole with
    | nil => exact absurd rfl hdigits.1
    | cons c whole =>
      have hc : c ≠ '0' := fun h => hzero (congrArg some h)
      have hmore : ∀ d ∈ whole, isDigit d = true := fun d hd =>
        hdigits.2 d (List.mem_cons_of_mem c hd)
      rw [List.cons_append, readWhole?, if_neg hc, if_pos (hdigits.2 c List.mem_cons_self),
        takeWhile_digits hmore hrest, dropWhile_digits hmore hrest]

theorem readFraction_append (hds : ∀ c ∈ ds, isDigit c = true)
    (hrest : ∀ c ∈ rest.head?, isDigit c = false ∧ c ≠ '.') :
    readFraction (fractionText ds ++ rest) = (ds, rest) := by
  rw [fractionText]
  split
  · rename_i hnil
    subst hnil
    rw [List.nil_append]
    unfold readFraction
    split
    · exact absurd rfl (hrest _ rfl).2
    · rfl
  · rename_i hne
    have hdigit : ∀ c ∈ rest.head?, isDigit c = false := fun c hc => (hrest c hc).1
    rw [List.cons_append, readFraction]
    simp only [takeWhile_digits hds hdigit, dropWhile_digits hds hdigit, List.isEmpty_iff, if_neg hne]

theorem readExponent_append (e : Int) (hrest : ∀ c ∈ rest.head?, isDigit c = false) :
    readExponent (exponentText e ++ rest) = (some e, rest) := by
  generalize hpadded : List.replicate (2 - (natText e.natAbs).length) (.char '0') ++
    natText e.natAbs = padded
  have hdigits : ∀ c ∈ padded, isDigit c = true := by
    intro c hc
    rw [← hpadded] at hc
    rcases List.mem_append.mp hc with hc | hc
    · rw [List.eq_of_mem_replicate hc]
      rfl
    · exact isDigit_of_mem_natText hc
  have hne : padded ≠ [] := by
    rw [← hpadded]
    simp [natText_ne_nil]
  have hvalue : digitsValue padded = e.natAbs := by
    rw [← hpadded, digitsValue_append, digitsValue_zeros, digitsValue_natText, Nat.zero_mul,
      Nat.zero_add]
  have htext : exponentText e ++ rest =
      .char 'e' :: (if e < 0 then .char '-' else .char '+') :: (padded ++ rest) := by
    rw [exponentText, ← hpadded]
    simp
  have hread (negative : Bool) :
      (let digits := (padded ++ rest).takeWhile isDigit
       if digits.isEmpty then (none, exponentText e ++ rest)
       else
         let n : Int := digitsValue digits
         (some (if negative then -n else n), (padded ++ rest).dropWhile isDigit)) =
        (some (if negative then -(e.natAbs : Int) else e.natAbs), rest) := by
    simp only [takeWhile_digits hdigits hrest, dropWhile_digits hdigits hrest, hvalue,
      List.isEmpty_iff, if_neg hne]
  rw [htext] at hread ⊢
  by_cases hneg : e < 0
  · rw [if_pos hneg] at hread ⊢
    refine (hread true).trans ?_
    rw [if_pos rfl, Int.ofNat_natAbs_of_nonpos hneg.le, neg_neg]
  · rw [if_neg hneg] at hread ⊢
    refine (hread false).trans ?_
    rw [if_neg Bool.false_ne_true, Int.natAbs_of_nonneg (not_lt.mp hneg)]

theorem readExponent_none (hrest : Ends rest) : readExponent rest = (none, rest) := by
  cases rest with
  | nil => rfl
  | cons c rest =>
    obtain ⟨-, -, he, hE⟩ := hrest c rfl
    have hmark : ¬(c = 'e' ∨ c = 'E') := by simp [he, hE]
    simp only [readExponent, if_neg hmark]

end Parts

/-- What begins with the mark of an exponent, or does not go on with a number. -/
theorem head?_exponentText? (exponent : Option Int) {rest : Text} (hrest : Ends rest) :
    ∀ c ∈ (exponentText? exponent ++ rest).head?, isDigit c = false ∧ c ≠ '.' := by
  cases exponent with
  | none => exact fun c hc => ⟨(hrest c hc).1, (hrest c hc).2.1⟩
  | some e =>
    intro c hc
    obtain rfl : CodePoint.char 'e' = c := Option.some.inj hc
    decide

/-- A number is read with its sign, its whole digits, its fraction and its exponent. -/
theorem readNumber?_append (negative : Bool) {whole fraction rest : Text} (exponent : Option Int)
    (hwhole : IsWhole whole) (hfraction : ∀ c ∈ fraction, isDigit c = true) (hrest : Ends rest) :
    readNumber? (Binary64.withSign negative
      (whole ++ (fractionText fraction ++ (exponentText? exponent ++ rest)))) =
        some (⟨negative, whole, fraction, exponent⟩, rest) := by
  have hexponent := head?_exponentText? exponent hrest
  have hafter : ∀ c ∈ (fractionText fraction ++ (exponentText? exponent ++ rest)).head?,
      isDigit c = false := by
    rw [fractionText]
    split
    · exact fun c hc => (hexponent c hc).1
    · intro c hc
      obtain rfl : CodePoint.char '.' = c := Option.some.inj hc
      rfl
  have hread : readExponent (exponentText? exponent ++ rest) = (exponent, rest) := by
    cases exponent with
    | none => exact readExponent_none hrest
    | some e => exact readExponent_append e fun c hc => (hrest c hc).1
  have hwholeRead := readWhole?_append hwhole hafter
  have hfractionRead := readFraction_append hfraction hexponent
  cases negative with
  | true =>
    rw [Binary64.withSign, if_pos rfl, readNumber?]
    simp only [hwholeRead, hfractionRead, hread, Option.map_some]
  | false =>
    obtain ⟨hne, hdigits⟩ := hwhole.isDigits
    cases whole with
    | nil => exact absurd rfl hne
    | cons c whole =>
      rw [Binary64.withSign, if_neg Bool.false_ne_true, List.cons_append, readNumber?]
      · rw [List.cons_append] at hwholeRead
        simp only [hwholeRead, hfractionRead, hread, Option.map_some]
      · intro more hminus
        have hdigit := hdigits c List.mem_cons_self
        rw [(List.cons.inj hminus).1] at hdigit
        exact absurd hdigit (by decide)

/-- No word begins like a number. -/
theorem find?_words_number (negative : Bool) {whole : Text} (hwhole : IsWhole whole) (rest : Text) :
    words.find? (fun w => w.1.isPrefixOf (Binary64.withSign negative (whole ++ rest))) = none := by
  obtain ⟨hne, hdigits⟩ := hwhole.isDigits
  cases whole with
  | nil => exact absurd rfl hne
  | cons c whole =>
    have hc := hdigits c List.mem_cons_self
    have hletter {d : CodePoint} (hd : isDigit d = false) : d ≠ c := by
      rintro rfl
      rw [hd] at hc
      cases hc
    rw [List.find?_eq_none]
    intro w hw
    rw [List.isPrefixOf_iff_prefix]
    simp only [words, List.mem_cons, List.not_mem_nil, or_false] at hw
    cases negative with
    | true =>
      rw [Binary64.withSign, if_pos rfl, List.cons_append]
      rcases hw with rfl | rfl | rfl | rfl | rfl | rfl
      · exact fun h => absurd (List.cons_prefix_cons.mp h).1 (by decide)
      · exact fun h => absurd (List.cons_prefix_cons.mp h).1 (by decide)
      · exact fun h => absurd (List.cons_prefix_cons.mp h).1 (by decide)
      · exact fun h => absurd (List.cons_prefix_cons.mp h).1 (by decide)
      · exact fun h => absurd (List.cons_prefix_cons.mp h).1 (by decide)
      · exact fun h => absurd (List.cons_prefix_cons.mp (List.cons_prefix_cons.mp h).2).1
          (hletter rfl)
    | false =>
      rw [Binary64.withSign, if_neg Bool.false_ne_true, List.cons_append]
      rcases hw with rfl | rfl | rfl | rfl | rfl | rfl <;>
        exact fun h => absurd (List.cons_prefix_cons.mp h).1 (hletter rfl)

/-- A number is read as the value of its parts. -/
theorem readScalar_number (negative : Bool) {whole fraction rest : Text} (exponent : Option Int)
    (hwhole : IsWhole whole) (hfraction : ∀ c ∈ fraction, isDigit c = true) (hrest : Ends rest)
    {v : Value} (hv : NumberParts.value ⟨negative, whole, fraction, exponent⟩ = .ok v) :
    readScalar (Binary64.withSign negative
      (whole ++ (fractionText fraction ++ (exponentText? exponent ++ rest)))) = .ok (v, rest) := by
  rw [readScalar, find?_words_number negative hwhole,
    readNumber?_append negative exponent hwhole hfraction hrest]
  simp only [hv]
  rfl

/-! ## Integers -/

/-- An integer of at most 4300 digits is read back. -/
theorem readScalar_intText {n : Int} (hn : (natText n.natAbs).length ≤ 4300) {rest : Text}
    (hrest : Ends rest) : readScalar (intText n ++ rest) = .ok (.int n, rest) := by
  have htext : intText n ++ rest = Binary64.withSign (decide (n < 0))
      (natText n.natAbs ++ (fractionText [] ++ (exponentText? none ++ rest))) := by
    rw [intText, Binary64.withSign]
    by_cases hneg : n < 0 <;> simp [hneg, fractionText, exponentText?]
  rw [htext]
  refine readScalar_number _ none (isWhole_natText _) (by simp) hrest ?_
  rw [NumberParts.value, if_neg (by simpa using hn)]
  simp only [digitsValue_natText]
  by_cases hneg : n < 0
  · simp only [decide_eq_true hneg, if_true]
    congr 2
    omega
  · simp only [decide_eq_false hneg, Bool.false_eq_true, if_false]
    congr 2
    omega

/-! ## Numbers of the format -/

/-- The parts of a number without its sign, of which it has a fraction or an exponent. -/
structure Numeral where
  whole : Text
  fraction : Text
  exponent : Option Int
  isWhole : IsWhole whole
  isFraction : ∀ c ∈ fraction, isDigit c = true
  hasMark : fraction ≠ [] ∨ exponent ≠ none

namespace Numeral

/-- The parts one after the other. -/
def text (t : Numeral) : Text := t.whole ++ (fractionText t.fraction ++ exponentText? t.exponent)

/-- The exponent of the last digit. -/
def lastPlace (t : Numeral) : Int := t.exponent.getD 0 - t.fraction.length

/-- The rational that the number is. -/
def size (t : Numeral) : ℚ := digitsValue (t.whole ++ t.fraction) * 10 ^ t.lastPlace

/-- A number with a fraction or an exponent is read as a number of the format. -/
theorem readScalar (t : Numeral) (negative : Bool) {rest : Text} (hrest : Ends rest) :
    readScalar (Binary64.withSign negative (t.text ++ rest)) =
      .ok (.float (.ofDecimal negative (digitsValue (t.whole ++ t.fraction)) t.lastPlace), rest) := by
  have hvalue : NumberParts.value ⟨negative, t.whole, t.fraction, t.exponent⟩ =
      .ok (.float (.ofDecimal negative (digitsValue (t.whole ++ t.fraction)) t.lastPlace)) := by
    have hmark := t.hasMark
    unfold NumberParts.value
    split
    · rename_i hfraction hexponent
      simp only at hfraction hexponent
      exact absurd hmark (by simp [hfraction, hexponent])
    · rfl
  rw [text, List.append_assoc, List.append_assoc]
  exact readScalar_number negative t.exponent t.isWhole t.isFraction hrest hvalue

end Numeral

theorem isWhole_append {whole : Text} (hwhole : IsDigits whole)
    (hzero : whole.head? ≠ some (.char '0')) {more : Text} (hmore : ∀ c ∈ more, isDigit c = true) :
    IsWhole (whole ++ more) := by
  refine .inr ⟨⟨by simp [hwhole.1], ?_⟩, by rwa [List.head?_append_of_ne_nil _ hwhole.1]⟩
  intro c hc
  exact (List.mem_append.mp hc).elim (hwhole.2 c) (hmore c)

theorem isDigit_of_mem_zeros {k : Nat} {c : CodePoint} (h : c ∈ List.replicate k (.char '0')) :
    isDigit c = true := by
  rw [List.eq_of_mem_replicate h]
  rfl

section Positional

variable {ds : Text} (hdigits : IsDigits ds) {point exponent : Int}
  (hpoint : point = ds.length + exponent)

include hdigits hpoint

/-- Digits behind the point, with zeros between it and them. -/
theorem exists_numeral_behind (hle : point ≤ 0) :
    ∃ t : Numeral, t.text = positional .value ds point ∧ t.size = digitsValue ds * 10 ^ exponent := by
  simp only [positional, if_pos hle]
  refine ⟨⟨['0'], List.replicate (-point).toNat (.char '0') ++ ds, none, .inl rfl, ?_, ?_⟩, ?_, ?_⟩
  · intro c hc
    exact (List.mem_append.mp hc).elim isDigit_of_mem_zeros (hdigits.2 c)
  · exact .inl (by simp [hdigits.1])
  · simp [Numeral.text, fractionText, exponentText?, hdigits.1]
  · have hplace : (none : Option Int).getD 0 -
        ((List.replicate (-point).toNat (CodePoint.char '0') ++ ds).length : Int) = exponent := by
      rw [List.length_append, List.length_replicate, Option.getD_none]
      push_cast
      omega
    simp only [Numeral.size, Numeral.lastPlace, hplace]
    rw [digitsValue_append, digitsValue_append, digitsValue_zeros]
    simp [digitsValue, CodePoint.value]

variable (hzero : ds.head? ≠ some (.char '0'))

include hzero

/-- Digits before the point, with zeros between them and it. -/
theorem exists_numeral_before (hpos : 0 < point) (hlength : ds.length ≤ point.toNat) :
    ∃ t : Numeral, t.text = positional .value ds point ∧ t.size = digitsValue ds * 10 ^ exponent := by
  obtain ⟨k, hk⟩ := Nat.exists_eq_add_of_le hlength
  have hexponent : exponent = k := by omega
  simp only [positional, if_neg (not_le.mpr hpos), if_pos hlength]
  refine ⟨⟨ds ++ List.replicate (point.toNat - ds.length) (.char '0'), ['0'], none,
    isWhole_append hdigits hzero fun c => isDigit_of_mem_zeros, by decide,
    .inl (List.cons_ne_nil _ _)⟩, ?_, ?_⟩
  · simp [Numeral.text, fractionText, exponentText?, NumberStyle.value]
  · simp only [Numeral.size, Numeral.lastPlace]
    rw [digitsValue_append, digitsValue_append, digitsValue_zeros, List.length_replicate, hk,
      Nat.add_sub_cancel_left, hexponent, zpow_natCast]
    simp [digitsValue, CodePoint.value, zpow_neg]

/-- Digits on both sides of the point. -/
theorem exists_numeral_around (hpos : 0 < point) (hlength : ¬ds.length ≤ point.toNat) :
    ∃ t : Numeral, t.text = positional .value ds point ∧ t.size = digitsValue ds * 10 ^ exponent := by
  have htake : ds.take point.toNat ≠ [] := by
    rw [Ne, List.take_eq_nil_iff, not_or]
    exact ⟨by omega, hdigits.1⟩
  simp only [positional, if_neg (not_le.mpr hpos), if_neg hlength]
  refine ⟨⟨ds.take point.toNat, ds.drop point.toNat, none, .inr ⟨⟨htake, ?_⟩, ?_⟩, ?_, .inl ?_⟩,
    ?_, ?_⟩
  · exact fun c hc => hdigits.2 c (List.mem_of_mem_take hc)
  · rwa [List.head?_take, if_neg (by omega)]
  · exact fun c hc => hdigits.2 c (List.mem_of_mem_drop hc)
  · rwa [Ne, List.drop_eq_nil_iff]
  · simp [Numeral.text, fractionText, exponentText?, List.drop_eq_nil_iff, hlength]
  · simp only [Numeral.size, Numeral.lastPlace]
    rw [List.take_append_drop, List.length_drop, Option.getD_none]
    congr 2
    omega

end Positional

theorem point_eq_length (d : Decimal) : d.point = (natText d.coefficient).length + d.exponent := by
  rw [natText, Text.ofChars, List.length_map]
  rfl

section Decimal

variable {d : Decimal} (hd : d.coefficient ≠ 0)

include hd

/-- A decimal with its point before or among the digits, or not far after them. -/
theorem exists_numeral_positional :
    ∃ t : Numeral, t.text = positional .value (.ofChars d.digits) d.point ∧ t.size = d.size := by
  have hdigits := isDigits_natText d.coefficient
  have hpoint := point_eq_length d
  have hzero := head?_natText hd
  rw [Decimal.size, ← digitsValue_natText d.coefficient]
  rcases le_or_gt d.point 0 with hle | hpos
  · exact exists_numeral_behind hdigits hpoint hle
  · by_cases hlength : (natText d.coefficient).length ≤ d.point.toNat
    · exact exists_numeral_before hdigits hpoint hzero hpos hlength
    · exact exists_numeral_around hdigits hpoint hzero hpos hlength

/-- A decimal with one digit before the point and an exponent. -/
theorem exists_numeral_scientific :
    ∃ t : Numeral, t.text = scientific (.ofChars d.digits) d.point ∧ t.size = d.size := by
  have hdigits := isDigits_natText d.coefficient
  have hzero := head?_natText hd
  have hvalue := digitsValue_natText d.coefficient
  have hpoint := point_eq_length d
  change ∃ t : Numeral, t.text = scientific (natText d.coefficient) d.point ∧ t.size = d.size
  generalize natText d.coefficient = ds at hdigits hzero hvalue hpoint
  cases ds with
  | nil => exact absurd rfl hdigits.1
  | cons c ds =>
    have hc := hdigits.2 c List.mem_cons_self
    refine ⟨⟨[c], ds, some (d.point - 1), .inr ⟨⟨List.cons_ne_nil _ _, ?_⟩, hzero⟩, ?_,
      .inr (Option.some_ne_none _)⟩, ?_, ?_⟩
    · intro e he
      rwa [List.mem_singleton.mp he]
    · exact fun e he => hdigits.2 e (List.mem_cons_of_mem c he)
    · cases ds <;> simp [Numeral.text, scientific, fractionText, exponentText?]
    · simp only [Numeral.size, Numeral.lastPlace]
      rw [List.singleton_append, hvalue, Option.getD_some, Decimal.size, hpoint, List.length_cons]
      congr 2
      push_cast
      omega

/-- Whatever its style, a decimal that documents hold is a number with its size. -/
theorem exists_numeral : ∃ t : Numeral, t.text = d.text .value ∧ t.size = d.size := by
  rw [Decimal.text]
  split
  · exact exists_numeral_positional hd
  · exact exists_numeral_scientific hd

end Decimal

theorem coefficient_shortest {m : Nat} {e : Int} (h : Binary64.Canonical m e) (hm : m ≠ 0) :
    (Binary64.shortest m e).coefficient ≠ 0 := by
  intro hzero
  have hpos := (Binary64.roundsTo_shortest h hm).pos hm
  rw [Decimal.size, hzero] at hpos
  simp at hpos

/-- A number of the format, the marked ones that are no numbers apart, is read back. -/
theorem readScalar_floatText {x : Binary64} (hx : ∀ k, x ≠ .nan (.given k)) {rest : Text}
    (hrest : Ends rest) : readScalar (floatText x ++ rest) = .ok (.float x, rest) := by
  cases x with
  | nan mark =>
    cases mark with
    | document => rfl
    | given k => exact absurd rfl (hx k)
  | infinite negative => cases negative <;> rfl
  | finite negative m e h =>
    have hsign (text : Text) : Binary64.withSign negative text ++ rest =
        Binary64.withSign negative (text ++ rest) := by
      cases negative <;> rfl
    rw [floatText, Binary64.shortestText, hsign]
    by_cases hm : m = 0
    · have he : e = -1074 := by
        rcases h.2.2.2 with hle | he
        · rw [hm] at hle
          exact absurd hle (by decide)
        · exact he
      subst hm he
      rw [if_pos rfl]
      exact Numeral.readScalar
        ⟨['0'], ['0'], none, .inl rfl, by decide, .inl (List.cons_ne_nil _ _)⟩ negative hrest
    · have hsize := Binary64.roundsTo_shortest h hm
      obtain ⟨t, htext, hsame⟩ := exists_numeral (coefficient_shortest h hm)
      rw [← hsame] at hsize
      rw [if_neg hm, ← htext, t.readScalar negative hrest,
        Binary64.ofDecimal_of_roundsTo h hm negative hsize]

end Json

end HttpWorkbench
