import HttpWorkbench.Number.Shortest
import HttpWorkbench.Proofs.Number.Rounding
import Mathlib.Algebra.Order.Group.Abs

/-!
# The shortest decimal rounds to its number

Every decimal that the search for the shortest one accepts lies among the rationals that round to the
number, and with seventeen digits the nearest decimal is always accepted: neighbours on that grid are
closer together than numbers of the format are. So reading the decimal gives the number again.
-/

namespace HttpWorkbench

namespace Decimal

/-- The rational that a decimal is. -/
def size (d : Decimal) : ℚ := d.coefficient * 10 ^ d.exponent

theorem size_dropZeros (fuel : Nat) (d : Decimal) : (dropZeros fuel d).size = d.size := by
  induction fuel generalizing d with
  | zero => rfl
  | succ fuel ih =>
    rw [dropZeros]
    split
    · rename_i h
      rw [ih, size, size, zpow_add_one₀ (by norm_num)]
      have hten : (d.coefficient : ℚ) = 10 * (d.coefficient / 10 : Nat) := by
        exact_mod_cast (Nat.mul_div_cancel' (Nat.dvd_of_mod_eq_zero h.1)).symm
      rw [hten]
      ring
    · rfl

/-- Dropping trailing zeros keeps the size. -/
theorem size_trimmed (d : Decimal) : d.trimmed.size = d.size := size_dropZeros _ d

end Decimal

namespace Binary64

theorem decimalRatio_snd_pos (d : Decimal) : 0 < (decimalRatio d).2 := by
  rw [decimalRatio]
  split
  · exact Nat.one_pos
  · exact Nat.pow_pos (by decide)

theorem decimalRatio_div (d : Decimal) :
    ((decimalRatio d).1 : ℚ) / (decimalRatio d).2 = d.size := by
  rw [decimalRatio, Decimal.size]
  split
  · rename_i e he
    rw [he]
    simp
  · rename_i e he
    rw [he]
    simp [zpow_negSucc, div_eq_mul_inv]

/-- Fractions are compared crosswise. -/
theorem compare_mul {a b c d : Nat} (hb : 0 < b) (hd : 0 < d) :
    compare (a * d) (c * b) = compare ((a : ℚ) / b) (c / d) := by
  have hb' : (0 : ℚ) < b := by exact_mod_cast hb
  have hd' : (0 : ℚ) < d := by exact_mod_cast hd
  rcases lt_trichotomy (a * d) (c * b) with h | h | h
  · rw [compare_lt_iff_lt.mpr h, eq_comm, compare_lt_iff_lt, div_lt_div_iff₀ hb' hd']
    exact_mod_cast h
  · rw [compare_eq_iff_eq.mpr h, eq_comm, compare_eq_iff_eq, div_eq_div_iff hb'.ne' hd'.ne']
    exact_mod_cast h
  · rw [compare_gt_iff_gt.mpr h, eq_comm, compare_gt_iff_gt, div_lt_div_iff₀ hd' hb']
    exact_mod_cast h

theorem roundingInterval_den_pos (m : Nat) (e : Int) : 0 < (roundingInterval m e).den :=
  Nat.mul_pos (by decide) (ratio_snd_pos 1 e)

/-- The fraction that one in the last place is. -/
theorem ratio_one_div (e : Int) : ((ratio 1 e).1 : ℚ) / (ratio 1 e).2 = 2 ^ e := by
  rw [ratio_div, Nat.cast_one, one_mul]

/-- An interval begins half-way to the lower neighbour. -/
theorem roundingInterval_low_div {m : Nat} (hm : m ≠ 0) (e : Int) :
    ((roundingInterval m e).low : ℚ) / (roundingInterval m e).den = (m - halfBelow m e) * 2 ^ e := by
  have hden : (0 : ℚ) < (ratio 1 e).2 := by exact_mod_cast ratio_snd_pos 1 e
  have hbelow : (((4 * m - if m = Nat.pow 2 52 ∧ e ≠ -1074 then 1 else 2 : Nat)) : ℚ) =
      4 * (m - halfBelow m e) := by
    rw [Nat.cast_sub (by split <;> omega), halfBelow]
    by_cases h : m = Nat.pow 2 52 ∧ e ≠ -1074
    · rw [if_pos h, if_pos (show m = 2 ^ 52 ∧ e ≠ -1074 from h)]
      push_cast
      ring
    · rw [if_neg h, if_neg (show ¬(m = 2 ^ 52 ∧ e ≠ -1074) from h)]
      push_cast
      ring
  simp only [roundingInterval]
  rw [Nat.cast_mul, Nat.cast_mul, hbelow, ← ratio_one_div]
  push_cast
  field_simp

/-- It ends half-way to the upper one. -/
theorem roundingInterval_high_div (m : Nat) (e : Int) :
    ((roundingInterval m e).high : ℚ) / (roundingInterval m e).den = (m + 1 / 2) * 2 ^ e := by
  have hden : (0 : ℚ) < (ratio 1 e).2 := by exact_mod_cast ratio_snd_pos 1 e
  simp only [roundingInterval]
  rw [← ratio_one_div]
  push_cast
  field_simp
  ring

/-- The interval of a number holds the fractions that round to it. -/
theorem holds_roundingInterval_iff {m : Nat} (hm : m ≠ 0) (e : Int) (a : Nat) {b : Nat}
    (hb : 0 < b) : (roundingInterval m e).holds a b = true ↔ RoundsTo (a / b) m e := by
  have hi := roundingInterval_den_pos m e
  have hlow := roundingInterval_low_div hm e
  have hhigh := roundingInterval_high_div m e
  have hclosed : (roundingInterval m e).closed = decide (m % 2 = 0) := rfl
  simp only [RoundingInterval.holds, compare_mul hi hb, compare_mul hb hi, hlow, hhigh, hclosed,
    decide_eq_true_eq]
  split
  · rename_i heven
    rw [Bool.and_eq_true, bne_iff_ne, bne_iff_ne, compare_le_iff_le, compare_le_iff_le]
    exact ⟨fun h => ⟨h.1, h.2, fun _ => heven⟩, fun h => ⟨h.low, h.high⟩⟩
  · rename_i hodd
    rw [Bool.and_eq_true, beq_iff_eq, beq_iff_eq, compare_lt_iff_lt, compare_lt_iff_lt]
    constructor
    · rintro ⟨hl, hh⟩
      refine ⟨hl.le, hh.le, ?_⟩
      rintro (h | h)
      · exact absurd h hl.ne'
      · exact absurd h hh.ne
    · intro h
      exact ⟨lt_of_le_of_ne h.low fun heq => hodd (h.tie (.inl heq.symm)),
        lt_of_le_of_ne h.high fun heq => hodd (h.tie (.inr heq))⟩

/-- The estimate of the point is not too high. -/
theorem pow_decimalPoint_le {num den : Nat} (hnum : 0 < num) (hden : 0 < den) :
    (10 : ℚ) ^ (decimalPoint num den - 1) ≤ num / den := by
  have hnum' : (0 : ℚ) < num := by exact_mod_cast hnum
  have hden' : (0 : ℚ) < den := by exact_mod_cast hden
  have hlength (n : Nat) : 0 < (Nat.toDigits 10 n).length := Nat.length_toDigits_pos
  rw [decimalPoint]
  split
  · rename_i hle
    have hpos := hlength (num / den)
    have hdigits : 10 ^ ((Nat.toDigits 10 (num / den)).length - 1) ≤ num / den := by
      by_contra hlt
      rcases Nat.eq_zero_or_pos ((Nat.toDigits 10 (num / den)).length - 1) with hzero | hmore
      · rw [hzero] at hlt
        exact hlt (Nat.div_pos hle hden)
      · have h := (Nat.length_toDigits_le_iff (by decide) hmore).mpr (Nat.lt_of_not_le hlt)
        omega
    have hexponent : ((Nat.toDigits 10 (num / den)).length : Int) - 1 =
        ((Nat.toDigits 10 (num / den)).length - 1 : Nat) := by omega
    rw [hexponent, zpow_natCast, le_div_iff₀ hden']
    exact_mod_cast (Nat.le_div_iff_mul_le hden).mp hdigits
  · generalize hk : (Nat.toDigits 10 (den / num)).length = k
    have hpos : 0 < k := hk ▸ hlength (den / num)
    simp only
    split
    · rename_i hpower
      have hexponent : 2 - (k : Int) - 1 = -((k - 1 : Nat) : Int) := by omega
      rw [hexponent, zpow_neg, zpow_natCast, hpower, Nat.pow_eq]
      push_cast
      rw [← div_div, div_self hnum'.ne', one_div]
    · have hlt : den / num < 10 ^ k :=
        (Nat.length_toDigits_le_iff (by decide) hpos).mp hk.le
      have hexponent : 1 - (k : Int) - 1 = -(k : Int) := by omega
      have hle : (den : ℚ) ≤ num * 10 ^ k := by
        exact_mod_cast (Nat.div_lt_iff_lt_mul hnum).mp hlt |>.le.trans_eq (Nat.mul_comm _ _)
      rw [hexponent, zpow_neg, zpow_natCast, inv_eq_one_div, div_le_div_iff₀ (by positivity) hden']
      linarith

section Grid

variable {m : Nat} {e : Int} {num den : Nat}

/-- A decimal is accepted when it rounds to the number. -/
theorem holds_decimalRatio_iff (hm : m ≠ 0) (d : Decimal) :
    (roundingInterval m e).holds (decimalRatio d).1 (decimalRatio d).2 = true ↔
      RoundsTo d.size m e := by
  rw [holds_roundingInterval_iff hm e _ (decimalRatio_snd_pos d), decimalRatio_div]

/-- On a grid, the search takes the nearest decimal when it is accepted, and else a neighbour of it
when that is. -/
theorem exists_onGrid?_eq (i : RoundingInterval) (num : Nat) (hden : 0 < den) (g : Int) :
    ∃ near far, NearestEven (num / den / 10 ^ g) near ∧
      onGrid? i num den g =
        if i.holds (decimalRatio ⟨near, g⟩).1 (decimalRatio ⟨near, g⟩).2 then some ⟨near, g⟩
        else if i.holds (decimalRatio ⟨far, g⟩).1 (decimalRatio ⟨far, g⟩).2 then some ⟨far, g⟩
        else none := by
  cases g with
  | ofNat k =>
    refine ⟨_, _, ?_, rfl⟩
    have hscaled : (num : ℚ) / den / 10 ^ (Int.ofNat k) = num / (den * Nat.pow 10 k : Nat) := by
      rw [Int.ofNat_eq_natCast, zpow_natCast, div_div, Nat.pow_eq]
      push_cast
      rfl
    rw [hscaled]
    exact nearestEven_roundQuotient num (Nat.mul_pos hden (Nat.pow_pos (by decide)))
  | negSucc k =>
    refine ⟨_, _, ?_, rfl⟩
    have hscaled : (num : ℚ) / den / 10 ^ (Int.negSucc k) =
        ((num * Nat.pow 10 (k + 1) : Nat) : ℚ) / den := by
      rw [zpow_negSucc, div_inv_eq_mul, Nat.pow_eq]
      push_cast
      ring
    rw [hscaled]
    exact nearestEven_roundQuotient (num * Nat.pow 10 (k + 1)) hden

/-- What the search takes from a grid rounds to the number. -/
theorem roundsTo_of_onGrid? (hm : m ≠ 0) (hden : 0 < den) {g : Int} {d : Decimal}
    (h : onGrid? (roundingInterval m e) num den g = some d) : RoundsTo d.size m e := by
  obtain ⟨near, far, -, hgrid⟩ := exists_onGrid?_eq (roundingInterval m e) num hden g
  rw [hgrid] at h
  split at h
  · rename_i hnear
    obtain rfl := Option.some.inj h
    exact (holds_decimalRatio_iff hm _).mp hnear
  · split at h
    · rename_i hfar
      obtain rfl := Option.some.inj h
      exact (holds_decimalRatio_iff hm _).mp hfar
    · cases h

/-- Where a grid is finer than the numbers of the format, the decimal nearest to a number rounds to
it. -/
theorem roundsTo_nearest {c : Nat} {g : Int} (hc : NearestEven (m * 2 ^ e / 10 ^ g) c)
    (hg : (10 : ℚ) ^ g / 2 < halfBelow m e * 2 ^ e) : RoundsTo (Decimal.size ⟨c, g⟩) m e := by
  have hten : (0 : ℚ) < 10 ^ g := by positivity
  have htwo : (0 : ℚ) < 2 ^ e := by positivity
  have hlow := hc.low
  have hhigh := hc.high
  rw [le_div_iff₀ hten] at hlow
  rw [div_le_iff₀ hten] at hhigh
  have hhalf : halfBelow m e * 2 ^ e ≤ 1 / 2 * 2 ^ e :=
    mul_le_mul_of_nonneg_right (halfBelow_le m e) htwo.le
  have hlower : (m - halfBelow m e) * 2 ^ e < (c : ℚ) * 10 ^ g := by linarith
  have hupper : (c : ℚ) * 10 ^ g < (m + 1 / 2) * 2 ^ e := by linarith
  refine ⟨hlower.le, hupper.le, ?_⟩
  rintro (h | h)
  · exact absurd h hlower.ne'
  · exact absurd h hupper.ne

/-- On a grid that is finer than the numbers of the format, the nearest decimal is taken. -/
theorem onGrid?_isSome (hm : m ≠ 0) (hden : 0 < den) (hvalue : (num : ℚ) / den = m * 2 ^ e) {g : Int}
    (hg : (10 : ℚ) ^ g / 2 < halfBelow m e * 2 ^ e) :
    (onGrid? (roundingInterval m e) num den g).isSome = true := by
  obtain ⟨near, far, hnear, hgrid⟩ := exists_onGrid?_eq (roundingInterval m e) num hden g
  rw [hvalue] at hnear
  rw [hgrid, if_pos ((holds_decimalRatio_iff hm _).mpr (roundsTo_nearest hnear hg))]
  rfl

/-- The search ends with a decimal that rounds to the number, when the last grid has one. -/
theorem roundsTo_shortestFrom (hm : m ≠ 0) (hden : 0 < den) {point : Int}
    (hlast : (onGrid? (roundingInterval m e) num den (point - 17)).isSome = true)
    {fuel count : Nat} (hcount : count + fuel = 18) (hfuel : 0 < fuel) :
    RoundsTo (shortestFrom (roundingInterval m e) num den point fuel count).size m e := by
  induction fuel generalizing count with
  | zero => exact absurd hfuel (Nat.lt_irrefl 0)
  | succ fuel ih =>
    rw [shortestFrom]
    split
    · rename_i d hd
      rw [Decimal.size_trimmed]
      exact roundsTo_of_onGrid? hm hden hd
    · rename_i hnone
      refine ih (by omega) (Nat.pos_of_ne_zero ?_)
      rintro rfl
      obtain rfl : count = 17 := by omega
      rw [Nat.cast_ofNat] at hnone
      rw [hnone] at hlast
      cases hlast

end Grid

/-- The shortest decimal of a number rounds to it. -/
theorem roundsTo_shortest {m : Nat} {e : Int} (h : Canonical m e) (hm : m ≠ 0) :
    RoundsTo (shortest m e).size m e := by
  have hden := ratio_snd_pos m e
  have hvalue := ratio_div m e
  have htwo : (0 : ℚ) < 2 ^ e := by positivity
  have hpos : (0 : ℚ) < m := by exact_mod_cast Nat.pos_of_ne_zero hm
  have hnum : 0 < (ratio m e).1 := by
    rw [Nat.pos_iff_ne_zero]
    intro hzero
    rw [hzero, Nat.cast_zero, zero_div] at hvalue
    exact (mul_pos hpos htwo).ne hvalue
  have hpoint := pow_decimalPoint_le hnum hden
  rw [hvalue] at hpoint
  -- seventeen digits tell more numbers apart than 53 binary digits
  have hfine : (10 : ℚ) ^ (decimalPoint (ratio m e).1 (ratio m e).2 - 17) / 2 <
      halfBelow m e * 2 ^ e := by
    generalize decimalPoint (ratio m e).1 (ratio m e).2 = p at hpoint
    have hgrid : (10 : ℚ) ^ (p - 17) = 10 ^ (p - 1) / 10 ^ 16 := by
      rw [show p - 17 = p - 1 - (16 : Nat) by omega, zpow_sub₀ (by norm_num), zpow_natCast]
    have hm53 : (m : ℚ) + 1 ≤ 2 ^ 53 := by exact_mod_cast h.1
    have hwide : (m : ℚ) < halfBelow m e * (2 * 10 ^ 16) := by
      rw [halfBelow]
      split
      · rename_i hpower
        rw [hpower.1]
        norm_num
      · linarith
    rw [hgrid]
    calc (10 : ℚ) ^ (p - 1) / 10 ^ 16 / 2 ≤ (m : ℚ) * 2 ^ e / 10 ^ 16 / 2 := by gcongr
      _ = (m : ℚ) / (2 * 10 ^ 16) * 2 ^ e := by ring
      _ < halfBelow m e * 2 ^ e := by
          refine mul_lt_mul_of_pos_right ?_ htwo
          rw [div_lt_iff₀ (by norm_num)]
          exact hwide
  exact roundsTo_shortestFrom hm hden (onGrid?_isSome hm hden hvalue hfine) rfl (by decide)

/-- A decimal with `k` digits at an exponent lies between powers of ten. -/
theorem pow_le_decimal {c : Nat} (hc : c ≠ 0) (g : Int) :
    (10 : ℚ) ^ (((Nat.toDigits 10 c).length : Int) + g - 1) ≤ c * 10 ^ g ∧
      (c : ℚ) * 10 ^ g < 10 ^ (((Nat.toDigits 10 c).length : Int) + g) := by
  have hten : (0 : ℚ) < 10 ^ g := by positivity
  have hpos : 0 < (Nat.toDigits 10 c).length := Nat.length_toDigits_pos
  generalize hk : (Nat.toDigits 10 c).length = k at hpos
  have hlt : c < 10 ^ k := (Nat.length_toDigits_le_iff (by decide) hpos).mp hk.le
  have hle : 10 ^ (k - 1) ≤ c := by
    rcases Nat.eq_zero_or_pos (k - 1) with hzero | hmore
    · rw [hzero]
      exact Nat.pos_of_ne_zero hc
    · by_contra hlt
      have h := (Nat.length_toDigits_le_iff (by decide) hmore).mpr (Nat.lt_of_not_le hlt)
      omega
  constructor
  · rw [show (k : Int) + g - 1 = (k - 1 : Nat) + g by omega, zpow_add₀ (by norm_num), zpow_natCast]
    gcongr
    exact_mod_cast hle
  · rw [zpow_add₀ (by norm_num), zpow_natCast]
    gcongr
    exact_mod_cast hlt

/-- What rounds to a number of the format is far from having 400 digits before the point. -/
theorem RoundsTo.lt_ten_pow {x : ℚ} {m : Nat} {e : Int} (hx : RoundsTo x m e) (h : Canonical m e) :
    x < 10 ^ (400 : Int) := by
  have hm53 : (m : ℚ) + 1 ≤ 2 ^ 53 := by exact_mod_cast h.1
  have hrange : (2 : ℚ) ^ 53 * 2 ^ (971 : Int) < 10 ^ (400 : Int) := by
    rw [show (2 : ℚ) ^ (971 : Int) = 2 ^ 971 from zpow_natCast 2 971,
      show (10 : ℚ) ^ (400 : Int) = 10 ^ 400 from zpow_natCast 10 400]
    exact_mod_cast (by decide +kernel : 2 ^ 53 * 2 ^ 971 < 10 ^ 400)
  calc x ≤ (m + 1 / 2) * 2 ^ e := hx.high
    _ ≤ 2 ^ 53 * 2 ^ (971 : Int) :=
        mul_le_mul (by linarith) (two_zpow_le h.2.2.1) (by positivity) (by norm_num)
    _ < 10 ^ (400 : Int) := hrange

/-- And it is above the place of the 401st digit behind the point. -/
theorem RoundsTo.ten_pow_lt {x : ℚ} {m : Nat} {e : Int} (hx : RoundsTo x m e) (h : Canonical m e)
    (hm : m ≠ 0) : (10 : ℚ) ^ (-401 : Int) < x := by
  have hone : (1 : ℚ) ≤ m := by exact_mod_cast Nat.one_le_iff_ne_zero.mpr hm
  have hhalf := halfBelow_le m e
  have hrange : (10 : ℚ) ^ (-401 : Int) < 1 / 2 * 2 ^ (-1074 : Int) := by
    rw [show (10 : ℚ) ^ (-401 : Int) = 1 / 10 ^ 401 by rw [zpow_neg, one_div]; rfl,
      show (2 : ℚ) ^ (-1074 : Int) = 1 / 2 ^ 1074 by rw [zpow_neg, one_div]; rfl,
      div_mul_div_comm, div_lt_div_iff₀ (by positivity) (by positivity)]
    exact_mod_cast (by decide +kernel : 1 * (2 * 2 ^ 1074) < 1 * 1 * 10 ^ 401)
  calc (10 : ℚ) ^ (-401 : Int) < 1 / 2 * 2 ^ (-1074 : Int) := hrange
    _ ≤ (m - halfBelow m e) * 2 ^ e :=
        mul_le_mul (by linarith) (two_zpow_le h.2.1) (by positivity) (by linarith)
    _ ≤ x := hx.low

/-- A decimal that rounds to a number is read as that number: its size is within the range where the
digits are looked at. -/
theorem ofDecimal_of_roundsTo {m : Nat} {e : Int} (h : Canonical m e) (hm : m ≠ 0) (negative : Bool)
    {c : Nat} {g : Int} (hx : RoundsTo (c * 10 ^ g) m e) :
    ofDecimal negative c g = .finite negative m e h := by
  have hc : c ≠ 0 := by
    rintro rfl
    have hpos := hx.pos hm
    simp at hpos
  obtain ⟨hleast, hgreatest⟩ := pow_le_decimal hc g
  have hsmall : ¬400 < ((Nat.toDigits 10 c).length : Int) + g := by
    intro hlarge
    have hpow : (10 : ℚ) ^ (400 : Int) ≤ 10 ^ (((Nat.toDigits 10 c).length : Int) + g - 1) :=
      zpow_le_zpow_right₀ (by norm_num) (by omega)
    exact absurd (hpow.trans hleast) (not_le.mpr (hx.lt_ten_pow h))
  have hlarge : ¬((Nat.toDigits 10 c).length : Int) + g < -400 := by
    intro hsmall
    have hpow : (10 : ℚ) ^ (((Nat.toDigits 10 c).length : Int) + g) ≤ 10 ^ (-401 : Int) :=
      zpow_le_zpow_right₀ (by norm_num) (by omega)
    exact absurd (hgreatest.le.trans hpow) (not_le.mpr (hx.ten_pow_lt h hm))
  have hsize := decimalRatio_div ⟨c, g⟩
  rw [Decimal.size] at hsize
  have hround := ofRatio_of_roundsTo (decimalRatio_snd_pos ⟨c, g⟩) negative h hm (hsize ▸ hx)
  unfold ofDecimal
  simp only [if_neg hc, if_neg hsmall, if_neg hlarge]
  cases g <;> exact hround

end Binary64

end HttpWorkbench
