import HttpWorkbench.Number.Binary64
import Mathlib.Algebra.Order.Field.Power
import Mathlib.Tactic.FieldSimp
import Mathlib.Tactic.Linarith
import Mathlib.Tactic.Positivity
import Mathlib.Tactic.Ring

/-!
# Rounding to the format

Which quotients round to a finite number, said over the rationals: those that are nearer to it than
to its neighbours, and those half-way when the mantissa is even. Below a power of two the neighbour
is half as far away. Everything below the middle between the largest number and the next power of
two rounds to a finite number.
-/

namespace HttpWorkbench.Binary64

theorem ratio_snd_pos (m : Nat) (e : Int) : 0 < (ratio m e).2 := by
  cases e with
  | ofNat e => exact Nat.one_pos
  | negSucc e => exact Nat.pow_pos Nat.two_pos

/-- The fraction of a finite magnitude is the magnitude. -/
theorem ratio_div (m : Nat) (e : Int) : ((ratio m e).1 : ℚ) / (ratio m e).2 = m * 2 ^ e := by
  cases e with
  | ofNat e => simp [ratio]
  | negSucc e => simp [ratio, zpow_negSucc, div_eq_mul_inv]

/-- A natural number nearest to a rational, and the even one of two such numbers. -/
structure NearestEven (x : ℚ) (n : Nat) : Prop where
  low : (n : ℚ) - 1 / 2 ≤ x
  high : x ≤ n + 1 / 2
  tie : x = n - 1 / 2 ∨ x = n + 1 / 2 → n % 2 = 0

theorem NearestEven.le_of_le {x y : ℚ} {n k : Nat} (hx : NearestEven x n) (hy : NearestEven y k)
    (hxy : x ≤ y) : n ≤ k := by
  by_contra hlt
  have hle : (k : ℚ) + 1 ≤ n := by exact_mod_cast Nat.lt_of_not_le hlt
  have hlow := hx.low
  have hhigh := hy.high
  -- both are half-way between the two numbers, which cannot both be even
  have hxk : x = k + 1 / 2 := by linarith
  have hnk : n = k + 1 := by
    have hq : (n : ℚ) = k + 1 := by linarith
    exact_mod_cast hq
  have hn := hx.tie (.inl (by rw [hxk, hnk]; push_cast; ring))
  have hk := hy.tie (.inr (by linarith))
  omega

theorem NearestEven.unique {x : ℚ} {n k : Nat} (h : NearestEven x n) (h' : NearestEven x k) :
    n = k :=
  Nat.le_antisymm (h.le_of_le h' le_rfl) (h'.le_of_le h le_rfl)

/-- A natural number is the nearest one to itself. -/
theorem nearestEven_natCast (n : Nat) : NearestEven n n where
  low := by linarith
  high := by linarith
  tie := by rintro (h | h) <;> linarith

theorem nearestEven_roundQuotient (num : Nat) {den : Nat} (hden : 0 < den) :
    NearestEven (num / den) (roundQuotient num den) := by
  have hpos : (0 : ℚ) < den := by exact_mod_cast hden
  have hdiv : (num : ℚ) = den * (num / den : Nat) + (num % den : Nat) := by
    exact_mod_cast (Nat.div_add_mod num den).symm
  have hx : (num : ℚ) / den = (num / den : Nat) + (num % den : Nat) / den := by
    rw [div_eq_iff hpos.ne', add_mul, div_mul_cancel₀ _ hpos.ne']
    linarith
  have hlt : ((num % den : Nat) : ℚ) < den := by exact_mod_cast Nat.mod_lt num hden
  have hrest : (0 : ℚ) ≤ (num % den : Nat) / den := by positivity
  generalize hq : num / den = q at *
  generalize hr : num % den = r at *
  simp only [roundQuotient, hq, hr]
  split
  · rename_i hup
    have hhalf : (1 : ℚ) / 2 ≤ r / den := by
      rw [div_le_div_iff₀ (by norm_num) hpos]
      have hle : (den : ℚ) ≤ 2 * r := by exact_mod_cast (by omega : den ≤ 2 * r)
      linarith
    have hone : (r : ℚ) / den < 1 := (div_lt_one hpos).mpr hlt
    refine ⟨by push_cast; linarith, by push_cast; linarith, ?_⟩
    rintro (h | h)
    · have htie : (r : ℚ) / den = 1 / 2 := by push_cast at h; linarith
      rw [div_eq_div_iff hpos.ne' (by norm_num)] at htie
      have hr2 : 2 * r = den := by exact_mod_cast (by linarith : (2 : ℚ) * r = den)
      omega
    · push_cast at h
      linarith
  · rename_i hdown
    have hhalf : (r : ℚ) / den ≤ 1 / 2 := by
      rw [div_le_div_iff₀ hpos (by norm_num)]
      have hle : (2 * r : ℚ) ≤ den := by exact_mod_cast (by omega : 2 * r ≤ den)
      linarith
    refine ⟨by linarith, by linarith, ?_⟩
    rintro (h | h)
    · linarith
    · have htie : (r : ℚ) / den = 1 / 2 := by linarith
      rw [div_eq_div_iff hpos.ne' (by norm_num)] at htie
      have hr2 : 2 * r = den := by exact_mod_cast (by linarith : (2 : ℚ) * r = den)
      omega

theorem nearestEven_scaledQuotient (num : Nat) {den : Nat} (hden : 0 < den) (e : Int) :
    NearestEven (num / den / 2 ^ e) (scaledQuotient num den e) := by
  cases e with
  | ofNat e =>
    have h := nearestEven_roundQuotient num (Nat.mul_pos hden (Nat.pow_pos Nat.two_pos (n := e)))
    rw [scaledQuotient]
    convert h using 1
    · rw [Int.ofNat_eq_natCast, zpow_natCast, div_div]
      push_cast
      rfl
    · rfl
  | negSucc e =>
    have h := nearestEven_roundQuotient (num * Nat.pow 2 (e + 1)) hden
    rw [scaledQuotient]
    convert h using 1
    rw [zpow_negSucc, div_inv_eq_mul, Nat.pow_eq]
    push_cast
    ring

/-- The exponent at which a quotient is rounded: there it has 53 binary digits before the point, or
fewer at the least exponent. -/
structure IsExponent (x : ℚ) (e : Int) : Prop where
  least : -1074 ≤ e
  below : x < 2 ^ 53 * 2 ^ e
  reached : 2 ^ 52 * 2 ^ e ≤ x ∨ e = -1074

theorem two_zpow_succ (e : Int) : (2 : ℚ) ^ (e + 1) = 2 * 2 ^ e := by
  rw [zpow_add_one₀ (by norm_num), mul_comm]

theorem two_zpow_le {d e : Int} (h : d ≤ e) : (2 : ℚ) ^ d ≤ 2 ^ e :=
  zpow_le_zpow_right₀ (by norm_num) h

theorem IsExponent.le_of_le {x y : ℚ} {d e : Int} (hx : IsExponent x d) (hy : IsExponent y e)
    (hxy : x ≤ y) : d ≤ e := by
  by_contra hlt
  have hpow := two_zpow_le (by omega : e + 1 ≤ d)
  rw [two_zpow_succ] at hpow
  rcases hx.reached with hreached | hleast
  · have hbelow := hy.below
    linarith
  · have hleast' := hy.least
    omega

theorem IsExponent.unique {x : ℚ} {d e : Int} (h : IsExponent x d) (h' : IsExponent x e) : d = e :=
  Int.le_antisymm (h.le_of_le h' le_rfl) (h'.le_of_le h le_rfl)

theorem pow_bitLength_le {n : Nat} (hn : 0 < n) : (2 : ℚ) ^ ((bitLength n : Int) - 1) ≤ n := by
  have hle : 2 ^ n.log2 ≤ n := Nat.log2_self_le hn.ne'
  have hlength : ((bitLength n : Int) - 1) = n.log2 := by
    rw [bitLength, if_neg hn.ne']
    push_cast
    ring
  rw [hlength, zpow_natCast]
  exact_mod_cast hle

theorem lt_pow_bitLength {n : Nat} (hn : 0 < n) : (n : ℚ) < 2 ^ (bitLength n : Int) := by
  have hlt : n < 2 ^ (n.log2 + 1) := Nat.lt_log2_self
  rw [bitLength, if_neg hn.ne', zpow_natCast]
  exact_mod_cast hlt

/-- The comparison of a quotient with the first number beyond 53 digits. -/
theorem reached_eq (num : Nat) {den : Nat} (hden : 0 < den) (e : Int) :
    (match e with
      | .ofNat e => decide (Nat.pow 2 53 * (den * Nat.pow 2 e) ≤ num)
      | .negSucc e => decide (Nat.pow 2 53 * den ≤ num * Nat.pow 2 (e + 1))) =
      decide ((2 : ℚ) ^ 53 * 2 ^ e ≤ num / den) := by
  have hpos : (0 : ℚ) < den := by exact_mod_cast hden
  cases e with
  | ofNat e =>
    refine decide_eq_decide.mpr ?_
    rw [le_div_iff₀ hpos, Int.ofNat_eq_natCast, zpow_natCast, Nat.pow_eq, Nat.pow_eq,
      ← Nat.cast_le (α := ℚ), mul_right_comm, mul_assoc]
    push_cast
    rfl
  | negSucc e =>
    refine decide_eq_decide.mpr ?_
    rw [le_div_iff₀ hpos, zpow_negSucc, Nat.pow_eq, Nat.pow_eq, ← Nat.cast_le (α := ℚ),
      mul_right_comm, ← div_eq_mul_inv, div_le_iff₀ (by positivity)]
    push_cast
    rfl

/-- The exponent that the lengths of a fraction's two numbers promise is not too large. -/
theorem pow_lengths_le {num den : Nat} (hnum : 0 < num) (hden : 0 < den) :
    (2 : ℚ) ^ 52 * 2 ^ ((bitLength num : Int) - bitLength den - 53) ≤ num / den := by
  have hpos : (0 : ℚ) < den := by exact_mod_cast hden
  rw [le_div_iff₀ hpos]
  calc (2 : ℚ) ^ 52 * 2 ^ ((bitLength num : Int) - bitLength den - 53) * den
      ≤ 2 ^ 52 * 2 ^ ((bitLength num : Int) - bitLength den - 53) * 2 ^ (bitLength den : Int) := by
        gcongr
        exact (lt_pow_bitLength hden).le
    _ = 2 ^ ((bitLength num : Int) - 1) := by
        rw [← zpow_natCast (2 : ℚ) 52, ← zpow_add₀ (by norm_num), ← zpow_add₀ (by norm_num)]
        congr 1
        push_cast
        omega
    _ ≤ num := pow_bitLength_le hnum

/-- The exponent that the lengths of a fraction's two numbers promise is at most one too small. -/
theorem lt_pow_lengths {num den : Nat} (hnum : 0 < num) (hden : 0 < den) :
    (num : ℚ) / den < 2 ^ 54 * 2 ^ ((bitLength num : Int) - bitLength den - 53) := by
  have hpos : (0 : ℚ) < den := by exact_mod_cast hden
  rw [div_lt_iff₀ hpos]
  calc (num : ℚ) < 2 ^ (bitLength num : Int) := lt_pow_bitLength hnum
    _ = 2 ^ 54 * 2 ^ ((bitLength num : Int) - bitLength den - 53) *
          2 ^ ((bitLength den : Int) - 1) := by
        rw [← zpow_natCast (2 : ℚ) 54, ← zpow_add₀ (by norm_num), ← zpow_add₀ (by norm_num)]
        congr 1
        push_cast
        omega
    _ ≤ 2 ^ 54 * 2 ^ ((bitLength num : Int) - bitLength den - 53) * den := by
        gcongr
        exact pow_bitLength_le hden

/-- A rational with 53 binary digits before the point at some exponent is rounded there, or at the
least exponent when that is larger. -/
theorem isExponent_max {x : ℚ} {e : Int} (hlow : 2 ^ 52 * 2 ^ e ≤ x) (hhigh : x < 2 ^ 53 * 2 ^ e) :
    IsExponent x (max e (-1074)) := by
  refine ⟨le_max_right _ _, hhigh.trans_le ?_, ?_⟩
  · gcongr
    · norm_num
    · exact le_max_left _ _
  · rcases le_total (-1074) e with hle | hle
    · rw [max_eq_left hle]
      exact .inl hlow
    · exact .inr (max_eq_right hle)

/-- The estimate from the lengths is the exponent or one less, and the comparison tells which. -/
theorem isExponent_quotientExponent {num den : Nat} (hnum : 0 < num) (hden : 0 < den) :
    IsExponent (num / den) (quotientExponent num den) := by
  have hlow := pow_lengths_le hnum hden
  have hhigh := lt_pow_lengths hnum hden
  generalize hestimate : (bitLength num : Int) - bitLength den - 53 = estimate at hlow hhigh
  have hexponent : quotientExponent num den = max (if decide ((2 : ℚ) ^ 53 * 2 ^ estimate ≤
      num / den) = true then estimate + 1 else estimate) (-1074) := by
    subst hestimate
    exact congrArg (fun b : Bool => max (if b = true then _ else _) _) (reached_eq num hden _)
  simp only [decide_eq_true_eq] at hexponent
  rw [hexponent]
  by_cases hnext : (2 : ℚ) ^ 53 * 2 ^ estimate ≤ num / den
  · rw [if_pos hnext]
    have hsucc := two_zpow_succ estimate
    exact isExponent_max (by linarith) (by linarith)
  · rw [if_neg hnext]
    exact isExponent_max hlow (not_le.mp hnext)

/-- Half the distance from a finite number to its lower neighbour, in units of the last place. -/
def halfBelow (m : Nat) (e : Int) : ℚ := if m = 2 ^ 52 ∧ e ≠ -1074 then 1 / 4 else 1 / 2

/-- A rational rounds to the finite number with this mantissa and exponent. -/
structure RoundsTo (x : ℚ) (m : Nat) (e : Int) : Prop where
  low : (m - halfBelow m e) * 2 ^ e ≤ x
  high : x ≤ (m + 1 / 2) * 2 ^ e
  tie : x = (m - halfBelow m e) * 2 ^ e ∨ x = (m + 1 / 2) * 2 ^ e → m % 2 = 0

theorem halfBelow_le (m : Nat) (e : Int) : halfBelow m e ≤ 1 / 2 := by
  rw [halfBelow]
  split <;> norm_num

theorem halfBelow_pos (m : Nat) (e : Int) : 0 < halfBelow m e := by
  rw [halfBelow]
  split <;> norm_num

theorem RoundsTo.pos {x : ℚ} {m : Nat} {e : Int} (hx : RoundsTo x m e) (hm : m ≠ 0) : 0 < x := by
  have hone : (1 : ℚ) ≤ m := by exact_mod_cast Nat.one_le_iff_ne_zero.mpr hm
  have hhalf := halfBelow_le m e
  refine lt_of_lt_of_le (mul_pos ?_ (by positivity)) hx.low
  linarith

/-- A finite number rounds to itself. -/
theorem roundsTo_self (m : Nat) (e : Int) : RoundsTo (m * 2 ^ e) m e where
  low := by
    gcongr
    linarith [halfBelow_pos m e]
  high := by
    gcongr
    linarith
  tie := by
    have hpow : (0 : ℚ) < 2 ^ e := by positivity
    rintro (h | h)
    · have heq := mul_right_cancel₀ hpow.ne' h
      linarith [halfBelow_pos m e]
    · have heq := mul_right_cancel₀ hpow.ne' h
      linarith

/-- What rounding a quotient comes to, from its exponent and its nearest multiple. -/
theorem ofRatio_eq {num den : Nat} (hnum : 0 < num) (hden : 0 < den) (negative : Bool) {n : Nat}
    {e : Int} (he : IsExponent (num / den) e) (hn : NearestEven (num / den / 2 ^ e) n) :
    ofRatio negative num den =
      if n = 2 ^ 53 then
        (if h : Canonical (2 ^ 52) (e + 1) then .finite negative (2 ^ 52) (e + 1) h
          else .infinite negative)
      else if h : Canonical n e then .finite negative n e h else .infinite negative := by
  have hexponent := (isExponent_quotientExponent hnum hden).unique he
  have hmantissa := (nearestEven_scaledQuotient num hden e).unique hn
  simp only [ofRatio, if_neg hnum.ne', hexponent, hmantissa]
  by_cases h : n = Nat.pow 2 53
  · rw [if_pos (show n = 2 ^ 53 from h)]
    simp only [if_pos h]
    rfl
  · rw [if_neg (show n ≠ 2 ^ 53 from h)]
    simp only [if_neg h]

/-- The mantissa that a quotient is rounded to has 53 digits at most, or is the power after them. -/
theorem NearestEven.le_pow {x : ℚ} {n : Nat} {e : Int} (hn : NearestEven (x / 2 ^ e) n)
    (he : IsExponent x e) : n ≤ 2 ^ 53 := by
  have hpow : (0 : ℚ) < 2 ^ e := by positivity
  refine hn.le_of_le (nearestEven_natCast (2 ^ 53)) ?_
  rw [div_le_iff₀ hpow]
  push_cast
  exact he.below.le

theorem NearestEven.pow_le {x : ℚ} {n : Nat} {e : Int} (hn : NearestEven (x / 2 ^ e) n)
    (hx : 2 ^ 52 * 2 ^ e ≤ x) : 2 ^ 52 ≤ n := by
  have hpow : (0 : ℚ) < 2 ^ e := by positivity
  refine (nearestEven_natCast (2 ^ 52)).le_of_le hn ?_
  rw [le_div_iff₀ hpow]
  push_cast
  exact hx

/-- Where the exponent of a finite number is that of the rational too, the mantissa is the nearest
multiple. -/
theorem RoundsTo.nearestEven {x : ℚ} {m : Nat} {e : Int} (hx : RoundsTo x m e)
    (hreached : 2 ^ 52 * 2 ^ e ≤ x ∨ e = -1074) : NearestEven (x / 2 ^ e) m := by
  have hpow : (0 : ℚ) < 2 ^ e := by positivity
  have hlow := hx.low
  refine ⟨?_, ?_, ?_⟩
  · rw [le_div_iff₀ hpow]
    by_cases hpower : m = 2 ^ 52 ∧ e ≠ -1074
    · have hle := hreached.resolve_right hpower.2
      rw [hpower.1]
      push_cast
      linarith
    · rwa [halfBelow, if_neg hpower] at hlow
  · rw [div_le_iff₀ hpow]
    exact hx.high
  · rw [div_eq_iff hpow.ne', div_eq_iff hpow.ne']
    rintro (hhalf | hhalf)
    · by_cases hpower : m = 2 ^ 52
      · rw [hpower]
        norm_num
      · refine hx.tie (.inl ?_)
        rw [halfBelow, if_neg fun h => hpower h.1, hhalf]
    · exact hx.tie (.inr hhalf)

/-- Only a power of two can be what a rational with fewer digits before the point rounds to. -/
theorem RoundsTo.eq_pow {x : ℚ} {m : Nat} {e : Int} (hx : RoundsTo x m e) (hm : 2 ^ 52 ≤ m)
    (hlt : x < 2 ^ 52 * 2 ^ e) : m = 2 ^ 52 := by
  by_contra hpower
  have hgt : (2 : ℚ) ^ 52 + 1 ≤ m := by exact_mod_cast Nat.lt_of_le_of_ne hm (Ne.symm hpower)
  have hlow := hx.low
  rw [halfBelow, if_neg fun h => hpower h.1] at hlow
  have hle : (2 : ℚ) ^ 52 * 2 ^ e ≤ (m - 1 / 2) * 2 ^ e := by
    gcongr
    linarith
  linarith

/-- A rational that rounds to a power of two from below has the exponent before, and the power is
the nearest multiple there. -/
theorem RoundsTo.nearestEven_pred {x : ℚ} {e : Int} (hx : RoundsTo x (2 ^ 52) e)
    (hleast : -1074 < e) (hlt : x < 2 ^ 52 * 2 ^ e) :
    IsExponent x (e - 1) ∧ NearestEven (x / 2 ^ (e - 1)) (2 ^ 53) := by
  have hlow := hx.low
  rw [halfBelow, if_pos ⟨rfl, hleast.ne'⟩] at hlow
  have hsucc := two_zpow_succ (e - 1)
  rw [sub_add_cancel] at hsucc
  rw [hsucc] at hlt hlow
  push_cast at hlow
  have hpow : (0 : ℚ) < 2 ^ (e - 1) := by positivity
  refine ⟨⟨by omega, by linarith, .inl (by linarith)⟩, ?_, ?_, fun _ => by norm_num⟩
  · rw [le_div_iff₀ hpow]
    push_cast
    linarith
  · rw [div_le_iff₀ hpow]
    push_cast
    linarith

/-- Every quotient nearer to a finite number than to its neighbours rounds to it. -/
theorem ofRatio_of_roundsTo {num den : Nat} (hden : 0 < den) (negative : Bool) {m : Nat} {e : Int}
    (h : Canonical m e) (hm : m ≠ 0) (hx : RoundsTo (num / den) m e) :
    ofRatio negative num den = .finite negative m e h := by
  have hpos := hx.pos hm
  have hnum : 0 < num := by
    rw [Nat.pos_iff_ne_zero]
    rintro rfl
    simp at hpos
  obtain ⟨hlt, hleast, hgreatest, hnormal⟩ := id h
  change m < 2 ^ 53 at hlt
  change 2 ^ 52 ≤ m ∨ e = -1074 at hnormal
  by_cases hreached : 2 ^ 52 * 2 ^ e ≤ (num : ℚ) / den ∨ e = -1074
  · have hbelow : (num : ℚ) / den < 2 ^ 53 * 2 ^ e := by
      have hm53 : (m : ℚ) + 1 ≤ 2 ^ 53 := by exact_mod_cast hlt
      refine hx.high.trans_lt ?_
      gcongr
      linarith
    rw [ofRatio_eq hnum hden negative ⟨hleast, hbelow, hreached⟩ (hx.nearestEven hreached),
      if_neg hlt.ne, dif_pos h]
  · -- the quotient is below the power of two that the number is
    rw [not_or, not_le] at hreached
    obtain ⟨hbinade, hne⟩ := hreached
    obtain rfl := hx.eq_pow (hnormal.resolve_right hne) hbinade
    obtain ⟨hexponent, hn⟩ := hx.nearestEven_pred (lt_of_le_of_ne hleast (Ne.symm hne)) hbinade
    rw [ofRatio_eq hnum hden negative hexponent hn, if_pos rfl]
    simp only [sub_add_cancel]
    rw [dif_pos h]

/-- Where quotients begin to be too large: the middle between the largest finite number and the
power of two after it. -/
def overflowBound : ℚ := (2 ^ 53 - 1 / 2) * 2 ^ (971 : Int)

theorem overflowBound_pos : 0 < overflowBound := by
  rw [overflowBound]
  exact mul_pos (by norm_num) (by positivity)

/-- Quotients that are not larger than a thousand are far from too large. -/
theorem lt_overflowBound_of_le {q : ℚ} (h : q ≤ 1000) : q < overflowBound := by
  have hpow : (1 : ℚ) ≤ 2 ^ (971 : Int) := one_le_zpow₀ (by norm_num) (by norm_num)
  rw [overflowBound]
  generalize (2 : ℚ) ^ (971 : Int) = b at hpow
  linarith

/-- Every finite number is below the bound. -/
theorem Canonical.lt_overflowBound {m : Nat} {e : Int} (h : Canonical m e) :
    (m : ℚ) * 2 ^ e < overflowBound := by
  have hm : (m : ℚ) + 1 ≤ 2 ^ 53 := by exact_mod_cast h.1
  have hpow : (0 : ℚ) < 2 ^ (971 : Int) := by positivity
  calc (m : ℚ) * 2 ^ e ≤ m * 2 ^ (971 : Int) :=
        mul_le_mul_of_nonneg_left (two_zpow_le h.2.2.1) (Nat.cast_nonneg m)
    _ < overflowBound := mul_lt_mul_of_pos_right (by linarith) hpow

/-- The number at the exponent of a quotient with the nearest mantissa is nearest in the format. -/
theorem IsExponent.roundsTo {x : ℚ} {n : Nat} {e : Int} (he : IsExponent x e)
    (hn : NearestEven (x / 2 ^ e) n) : RoundsTo x n e := by
  have hpow : (0 : ℚ) < 2 ^ e := by positivity
  have hlow := hn.low
  have hhigh := hn.high
  have htie := hn.tie
  rw [le_div_iff₀ hpow] at hlow
  rw [div_le_iff₀ hpow] at hhigh
  rw [div_eq_iff hpow.ne', div_eq_iff hpow.ne'] at htie
  by_cases hpower : n = 2 ^ 52 ∧ e ≠ -1074
  · -- nothing below a power of two has its exponent
    have hreached := he.reached.resolve_right hpower.2
    have hbelow : (n - halfBelow n e) * 2 ^ e < x := by
      refine lt_of_lt_of_le ?_ hreached
      have hhalf := halfBelow_pos n e
      have hcast : (n : ℚ) = 2 ^ 52 := by exact_mod_cast hpower.1
      rw [hcast]
      exact mul_lt_mul_of_pos_right (by linarith) hpow
    refine ⟨hbelow.le, hhigh, fun _ => ?_⟩
    rw [hpower.1]
    norm_num
  · have hhalf : halfBelow n e = 1 / 2 := if_neg hpower
    exact ⟨hhalf ▸ hlow, hhigh, hhalf ▸ htie⟩

/-- A quotient that is rounded up to the power of two is nearest to it at the next exponent. -/
theorem IsExponent.roundsTo_succ {x : ℚ} {e : Int} (he : IsExponent x e)
    (hn : NearestEven (x / 2 ^ e) (2 ^ 53)) : RoundsTo x (2 ^ 52) (e + 1) := by
  have hpow : (0 : ℚ) < 2 ^ e := by positivity
  have hleast := he.least
  have hhalf : halfBelow (2 ^ 52) (e + 1) = 1 / 4 := if_pos ⟨rfl, by omega⟩
  have hlow := hn.low
  rw [le_div_iff₀ hpow] at hlow
  refine ⟨?_, ?_, fun _ => by norm_num⟩
  · rw [hhalf, two_zpow_succ]
    push_cast at hlow ⊢
    linarith
  · rw [two_zpow_succ]
    have hbelow := he.below
    push_cast
    linarith

/-- Below the bound, no exponent is beyond the greatest of the format. -/
theorem IsExponent.le_greatest {x : ℚ} {e : Int} (he : IsExponent x e) (hx : x < overflowBound) :
    e ≤ 971 := by
  by_contra hgt
  have hpos : (0 : ℚ) < 2 ^ e := by positivity
  have hpow := two_zpow_le (by omega : 971 + 1 ≤ e)
  rw [two_zpow_succ] at hpow
  rw [overflowBound] at hx
  generalize (2 : ℚ) ^ (971 : Int) = b at hpow hx
  rcases he.reached with hreached | hleast
  · linarith
  · omega

/-- From the bound on, no exponent is less than the greatest of the format. -/
theorem IsExponent.greatest_le {x : ℚ} {e : Int} (he : IsExponent x e) (hx : overflowBound ≤ x) :
    971 ≤ e := by
  by_contra hlt
  have hpos : (0 : ℚ) < 2 ^ e := by positivity
  have hpow := two_zpow_le (by omega : e + 1 ≤ 971)
  rw [two_zpow_succ] at hpow
  have hbelow := he.below
  rw [overflowBound] at hx
  generalize (2 : ℚ) ^ (971 : Int) = b at hpow hx
  linarith

/-- At the greatest exponent, a rational is rounded up to the power of two from the bound on. -/
theorem NearestEven.eq_pow_iff {x : ℚ} {n : Nat} (hn : NearestEven (x / 2 ^ (971 : Int)) n)
    (he : IsExponent x 971) : n = 2 ^ 53 ↔ overflowBound ≤ x := by
  have hpow : (0 : ℚ) < 2 ^ (971 : Int) := by positivity
  have hle := hn.le_pow he
  rw [overflowBound, ← le_div_iff₀ hpow]
  generalize x / 2 ^ (971 : Int) = y at hn
  constructor
  · rintro rfl
    have hlow := hn.low
    push_cast at hlow
    exact hlow
  · intro hx
    by_contra h53
    have hlt : (n : ℚ) + 1 ≤ 2 ^ 53 := by exact_mod_cast Nat.lt_of_le_of_ne hle h53
    -- the rational is half-way between the power and the odd number before it
    have hhigh := hn.high
    have htie : (n : ℚ) + 1 = 2 ^ 53 := by linarith
    have heven := hn.tie (.inr (by linarith))
    have hn53 : n + 1 = 2 ^ 53 := by exact_mod_cast htie
    omega

/-- Every quotient below the bound rounds to a finite number. -/
theorem ofRatio_finite {num den : Nat} (hden : 0 < den) (negative : Bool)
    (hx : (num : ℚ) / den < overflowBound) :
    ∃ m e h, ofRatio negative num den = .finite negative m e h ∧ RoundsTo (num / den) m e := by
  rcases Nat.eq_zero_or_pos num with rfl | hnum
  · refine ⟨0, -1074, _, rfl, ?_⟩
    have hself := roundsTo_self 0 (-1074)
    simpa using hself
  have hexponent := isExponent_quotientExponent hnum hden
  have hn := nearestEven_scaledQuotient num hden (quotientExponent num den)
  generalize quotientExponent num den = e at hexponent hn
  generalize scaledQuotient num den e = n at hn
  have hleast := hexponent.least
  have hgreatest := hexponent.le_greatest hx
  rw [ofRatio_eq hnum hden negative hexponent hn]
  by_cases h53 : n = 2 ^ 53
  · have hlt : e < 971 := by
      refine lt_of_le_of_ne hgreatest ?_
      rintro rfl
      exact absurd ((hn.eq_pow_iff hexponent).mp h53) (not_le.mpr hx)
    have hcanonical : Canonical (2 ^ 52) (e + 1) :=
      ⟨by norm_num, by omega, by omega, .inl (Nat.le_refl _)⟩
    refine ⟨_, _, hcanonical, by rw [if_pos h53, dif_pos hcanonical], ?_⟩
    exact hexponent.roundsTo_succ (h53 ▸ hn)
  · have hcanonical : Canonical n e := ⟨Nat.lt_of_le_of_ne (hn.le_pow hexponent) h53, hleast,
      hgreatest, hexponent.reached.imp_left hn.pow_le⟩
    exact ⟨_, _, hcanonical, by rw [if_neg h53, dif_pos hcanonical], hexponent.roundsTo hn⟩

/-- Every quotient from the bound on is too large. -/
theorem ofRatio_infinite {num den : Nat} (hden : 0 < den) (negative : Bool)
    (hx : overflowBound ≤ (num : ℚ) / den) : ofRatio negative num den = .infinite negative := by
  have hbound := overflowBound_pos
  have hnum : 0 < num := by
    rw [Nat.pos_iff_ne_zero]
    rintro rfl
    simp only [Nat.cast_zero, zero_div] at hx
    linarith
  have hexponent := isExponent_quotientExponent hnum hden
  have hn := nearestEven_scaledQuotient num hden (quotientExponent num den)
  generalize quotientExponent num den = e at hexponent hn
  generalize scaledQuotient num den e = n at hn
  have hgreatest := hexponent.greatest_le hx
  have hrange (m : Nat) (d : Int) (hd : 971 < d) : ¬Canonical m d :=
    fun h => absurd h.2.2.1 (Int.not_le.mpr hd)
  rw [ofRatio_eq hnum hden negative hexponent hn]
  by_cases h53 : n = 2 ^ 53
  · rw [if_pos h53, dif_neg (hrange _ _ (by omega))]
  · have hlt : 971 < e := by
      refine lt_of_le_of_ne hgreatest ?_
      rintro rfl
      exact h53 ((hn.eq_pow_iff hexponent).mpr hx)
    rw [if_neg h53, dif_neg (hrange _ _ hlt)]

end HttpWorkbench.Binary64
